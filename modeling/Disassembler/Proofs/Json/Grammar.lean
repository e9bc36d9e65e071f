import Disassembler.Json.Reading
import Disassembler.Proofs.Json.Encoding

/-!
# How JSON texts are written

The ways in which a token can be written, the texts that have given tokens with blanks between them,
and the tokens of what a document holds. Put together they say which texts are documents of a
reading, without the machines that read them.
-/

namespace Disassembler.Json

namespace Numeral

/-- The characters of digits, of which the last one comes first. -/
def digitCharacters (digits : List Nat) : List Char := digits.reverse.map Nat.digitChar

/-- Digits as they are written: there are some, and each is below ten. -/
structure AreDigits (digits : List Nat) : Prop where
  /-- There are some. -/
  nonempty : digits ≠ []
  /-- Each is below ten. -/
  small : ∀ digit ∈ digits, digit < 10

/-- Digits as they stand before the point. -/
structure WholePart (digits : List Nat) : Prop extends AreDigits digits where
  /-- Zero comes first in zero itself only. -/
  noLeadingZero : digits.getLast? = some 0 → digits = [0]

/-- The last digit is written behind the others. -/
theorem digitCharacters_cons (digit : Nat) (rest : List Nat) :
    digitCharacters (digit :: rest) = digitCharacters rest ++ [Nat.digitChar digit] := by
  unfold digitCharacters
  rw [List.reverse_cons, List.map_append, List.map_singleton]

/-- A single digit. -/
theorem areDigits_singleton {digit : Nat} (small : digit < 10) : AreDigits [digit] :=
  ⟨List.cons_ne_nil _ _, by simpa using small⟩

/-- A digit behind others. -/
theorem AreDigits.cons {digits : List Nat} (written : AreDigits digits) {digit : Nat}
    (small : digit < 10) : AreDigits (digit :: digits) :=
  ⟨List.cons_ne_nil _ _, List.forall_mem_cons.mpr ⟨small, written.small⟩⟩

/-- Digits that do not start with zero can stand before the point. -/
theorem AreDigits.wholePart {digits : List Nat} (written : AreDigits digits)
    (nonzero : digits.getLast? ≠ some 0) : WholePart digits :=
  ⟨written, fun zero => absurd zero nonzero⟩

/-- A digit behind others is not the first one. -/
theorem AreDigits.getLast?_cons_ne {digits : List Nat} (written : AreDigits digits)
    (nonzero : digits.getLast? ≠ some 0) (digit : Nat) :
    (digit :: digits).getLast? ≠ some 0 := by
  cases digits with
  | nil => exact absurd rfl written.nonempty
  | cons first rest =>
    rw [List.getLast?_cons_cons]
    exact nonzero

/-- Zero can stand before the point. -/
theorem wholePart_zero : WholePart [0] :=
  ⟨areDigits_singleton (by decide), fun _ => rfl⟩

/-- The minus sign of a negative number. -/
def signCharacters (negative : Bool) : List Char := if negative then ['-'] else []

/-- How a fraction is written. -/
inductive FractionPart : List Nat → List Char → Prop where
  /-- There is none. -/
  | absent : FractionPart [] []
  /-- It has a point before its digits. -/
  | written {digits : List Nat} : AreDigits digits →
      FractionPart digits ('.' :: digitCharacters digits)

/-- How the sign of an exponent is written. -/
inductive ExponentSign : Bool → List Char → Prop where
  /-- No sign stands for plus. -/
  | none : ExponentSign false []
  /-- A plus sign. -/
  | plus : ExponentSign false ['+']
  /-- A minus sign. -/
  | minus : ExponentSign true ['-']

/-- How an exponent is written. -/
inductive ExponentPart : Bool → List Nat → List Char → Prop where
  /-- There is none. -/
  | absent : ExponentPart false [] []
  /-- It has a letter and perhaps a sign before its digits. -/
  | written {negative : Bool} {digits : List Nat} {letter : Char} {sign : List Char} :
      letter = 'e' ∨ letter = 'E' → ExponentSign negative sign → AreDigits digits →
      ExponentPart negative digits (letter :: (sign ++ digitCharacters digits))

/-- How a number is written: a sign, the digits before the point, a fraction and an exponent. -/
inductive Spelled : Numeral → List Char → Prop where
  /-- The parts follow each other. -/
  | parts {negative negativeExponent : Bool} {whole fraction exponent : List Nat}
      {fractionText exponentText : List Char} : WholePart whole →
      FractionPart fraction fractionText → ExponentPart negativeExponent exponent exponentText →
      Spelled { negative, whole, fraction, negativeExponent, exponent }
        (signCharacters negative ++ digitCharacters whole ++ fractionText ++ exponentText)

end Numeral

namespace StringPart

/-- A byte that stands for itself inside a string. -/
structure Plain (byte : UInt8) : Prop where
  /-- It is not below the blank. -/
  visible : 0x20 ≤ byte.toNat
  /-- It is no quotation mark. -/
  noQuote : byte.toNat ≠ 0x22
  /-- It is no backslash. -/
  noBackslash : byte.toNat ≠ 0x5c

/-- The letters behind a backslash, with the characters that they stand for. -/
def letters : List (Char × Char) :=
  [('"', '"'), ('\\', '\\'), ('/', '/'), ('b', '\x08'), ('f', '\x0c'), ('n', '\n'), ('r', '\r'),
    ('t', '\t')]

/-- Hexadecimal digits and the number that they stand for. -/
inductive HexDigits : List Char → Nat → Prop where
  /-- No digits. -/
  | nil : HexDigits [] 0
  /-- A digit behind others. -/
  | snoc {digits : List Char} {value number : Nat} {digit : Char} : HexDigits digits value →
      Text.Hex.value? digit = some number → HexDigits (digits ++ [digit]) (16 * value + number)

/-- How a part of a string is written. -/
inductive Spelled : StringPart → List UInt8 → Prop where
  /-- A byte that stands for itself. -/
  | plain {byte : UInt8} : Plain byte → Spelled (.byte byte) [byte]
  /-- A letter behind a backslash. -/
  | letter {letter meant : Char} : (letter, meant) ∈ letters →
      Spelled (.byte (UInt8.ofNat meant.toNat)) (octets ['\\', letter])
  /-- Four digits behind a backslash and the letter of units. -/
  | unit {digits : List Char} {value : Nat} : HexDigits digits value → digits.length = 4 →
      Spelled (.unit value) (octets ('\\' :: 'u' :: digits))

/-- How the parts of a string are written, one after the other. -/
inductive AllSpelled : List StringPart → List UInt8 → Prop where
  /-- No parts. -/
  | nil : AllSpelled [] []
  /-- A part behind others. -/
  | snoc {parts : List StringPart} {part : StringPart} {bytes written : List UInt8} :
      AllSpelled parts bytes → Spelled part written →
      AllSpelled (parts ++ [part]) (bytes ++ written)

end StringPart

namespace Token

/-- The quotation mark around strings. -/
def quote : UInt8 := 0x22

/-- The tokens that are a single character. -/
def marks : List (Token × Char) :=
  [(.openArray, '['), (.closeArray, ']'), (.openObject, '{'), (.closeObject, '}'), (.comma, ','),
    (.colon, ':')]

/-- The tokens that are a word. -/
def words : List (Token × List Char) :=
  [(.null, ['n', 'u', 'l', 'l']), (.bool true, ['t', 'r', 'u', 'e']),
    (.bool false, ['f', 'a', 'l', 's', 'e'])]

/-- How a token is written. -/
inductive Spelled : Token → List UInt8 → Prop where
  /-- A bracket, a brace, a comma or a colon. -/
  | mark {token : Token} {c : Char} : (token, c) ∈ marks → Spelled token (octets [c])
  /-- Null or a truth value. -/
  | word {token : Token} {text : List Char} : (token, text) ∈ words → Spelled token (octets text)
  /-- A number. -/
  | number {numeral : Numeral} {text : List Char} : numeral.Spelled text →
      Spelled (.number numeral) (octets text)
  /-- A string, with the text that its parts stand for. -/
  | string {parts : List StringPart} {bytes : List UInt8} : StringPart.AllSpelled parts bytes →
      Spelled (.string ((StringPart.decode parts).map String.ofList)) (quote :: (bytes ++ [quote]))

/-- The bytes that separate tokens: the space, the tab, the line feed and the carriage return. -/
def blanks : List UInt8 := [0x20, 0x09, 0x0a, 0x0d]

/-- How tokens are written, with blanks wherever one likes. -/
inductive Written : List Token → List UInt8 → Prop where
  /-- No tokens. -/
  | nil : Written [] []
  /-- A blank behind what is written. -/
  | blank {tokens : List Token} {bytes : List UInt8} {byte : UInt8} : Written tokens bytes →
      byte ∈ blanks → Written tokens (bytes ++ [byte])
  /-- A token behind what is written. -/
  | token {tokens : List Token} {token : Token} {bytes written : List UInt8} :
      Written tokens bytes → token.Spelled written →
      Written (tokens ++ [token]) (bytes ++ written)

end Token

namespace Reading

mutual

/-- The tokens of a reading. -/
def tokens : Reading → List Token
  | .null => [.null]
  | .bool value => [.bool value]
  | .number numeral => [.number numeral]
  | .string text => [.string text]
  | .array items => .openArray :: (tokensOfItems items ++ [.closeArray])
  | .object members => .openObject :: (tokensOfMembers members ++ [.closeObject])
  | .damaged => [.fault]

/-- The tokens of items with commas between them. -/
def tokensOfItems : List Reading → List Token
  | [] => []
  | [item] => item.tokens
  | item :: rest => item.tokens ++ .comma :: tokensOfItems rest

/-- The tokens of members with commas between them. -/
def tokensOfMembers : List (Option String × Reading) → List Token
  | [] => []
  | [(key, value)] => .string key :: .colon :: value.tokens
  | (key, value) :: rest =>
    .string key :: .colon :: (value.tokens ++ .comma :: tokensOfMembers rest)

end

/-- A text is a document of a reading: it has its tokens, however they are written and spaced, and
nothing in it is damaged. -/
structure Document (reading : Reading) (bytes : List UInt8) : Prop where
  /-- Nothing is damaged. -/
  intact : reading.intact = true
  /-- The text has the tokens of the reading. -/
  written : Token.Written reading.tokens bytes

end Reading

end Disassembler.Json
