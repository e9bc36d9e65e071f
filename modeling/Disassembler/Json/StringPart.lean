/-!
# The contents of JSON strings

Between its quotation marks a string is a sequence of bytes and of 16-bit
units, which stand for themselves in UTF-8 and in UTF-16. Such a sequence need
not stand for any text: bytes may be no UTF-8, and a surrogate may lack its
partner. A text comes out only if all of the sequence is well formed.
-/

namespace Disassembler.Json

/-- A part of a string: a byte, or a unit that was written with four hexadecimal digits. -/
inductive StringPart where
  | byte (value : UInt8)
  | unit (value : Nat)
  deriving DecidableEq

namespace StringPart

/-- Whether a unit is the first one of a surrogate pair. -/
def isLeading (unit : Nat) : Bool := 0xd800 ≤ unit && unit < 0xdc00

/-- Whether a unit is the second one of a surrogate pair. -/
def isTrailing (unit : Nat) : Bool := 0xdc00 ≤ unit && unit < 0xe000

/-- The code point of a surrogate pair. -/
def pairValue (leading trailing : Nat) : Nat :=
  0x10000 + (leading - 0xd800) * 0x400 + (trailing - 0xdc00)

/-- Whether a byte continues a character in UTF-8. -/
def isContinuation (byte : UInt8) : Bool := byte.toNat / 0x40 == 2

/-- The six bits that a continuing byte holds. -/
def payload (byte : UInt8) : Nat := byte.toNat % 0x40

/-- The character with a code point that is not below `least`, the smallest code point that needs as
many bytes. -/
def character? (least value : Nat) : Option Char :=
  if least ≤ value ∧ value.isValidChar then some (Char.ofNat value) else none

/-- A character in front of a text, if there are both. -/
def prepend (character : Option Char) (text : Option (List Char)) : Option (List Char) :=
  character.bind fun c => text.map (c :: ·)

/-- The text that parts of a string stand for. -/
def decode : List StringPart → Option (List Char)
  | [] => some []
  | .unit value :: rest =>
    if isLeading value then
      match rest with
      | .unit trailing :: rest =>
        if isTrailing trailing then
          prepend (character? 0x10000 (pairValue value trailing)) (decode rest)
        else none
      | _ => none
    else prepend (character? 0 value) (decode rest)
  | .byte first :: rest =>
    let lead := first.toNat
    if lead < 0x80 then prepend (character? 0 lead) (decode rest)
    else match rest with
      | .byte second :: rest =>
        if !isContinuation second then none
        else if 0xc0 ≤ lead ∧ lead < 0xe0 then
          prepend (character? 0x80 ((lead - 0xc0) * 0x40 + payload second)) (decode rest)
        else match rest with
          | .byte third :: rest =>
            if !isContinuation third then none
            else if 0xe0 ≤ lead ∧ lead < 0xf0 then
              prepend (character? 0x800
                (((lead - 0xe0) * 0x40 + payload second) * 0x40 + payload third)) (decode rest)
            else match rest with
              | .byte fourth :: rest =>
                if !isContinuation fourth then none
                else if 0xf0 ≤ lead ∧ lead < 0xf8 then
                  prepend (character? 0x10000
                    ((((lead - 0xf0) * 0x40 + payload second) * 0x40 + payload third) * 0x40 +
                      payload fourth)) (decode rest)
                else none
              | _ => none
          | _ => none
      | _ => none

end StringPart

end Disassembler.Json
