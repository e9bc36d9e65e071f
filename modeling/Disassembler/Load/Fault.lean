import Disassembler.Image
import Disassembler.Json.Reading
import Disassembler.Text.Displayed

/-!
# Loading faults

A text may fail to be a document, or it may be one that does not hold what is
asked for. The first fault in the order of the text is the one that counts.
-/

namespace Disassembler.Load

open Json

/-- What a document holds at a place where it should hold something else. -/
inductive Found where
  /-- Null. -/
  | null
  /-- A truth value. -/
  | bool (value : Bool)
  /-- A whole number. -/
  | integer (value : Int)
  /-- A number that is not whole, or that 64 bits do not hold. -/
  | float
  /-- A string. -/
  | string (text : String)
  /-- An array. -/
  | sequence
  /-- An object. -/
  | map
  deriving DecidableEq

/-- What a document should hold at a place. -/
inductive Wanted where
  /-- A word. -/
  | word
  /-- A string. -/
  | string
  /-- An array. -/
  | sequence
  /-- Null, behind the name of a kind of values. -/
  | unit
  /-- The record with a name. -/
  | record (name : String)
  deriving DecidableEq

/-- Why a text could not be loaded. -/
inductive Fault where
  /-- The text is no document from some place on, or holds a string or a number without a value. -/
  | syntaxError
  /-- Something stands where something else is wanted. -/
  | wrongType (found : Found) (wanted : Wanted)
  /-- A whole number does not fit into a word. -/
  | wideInteger (value : Int)
  /-- A record lacks a field. -/
  | missingField (name : String)
  /-- A record has a field twice. -/
  | duplicateField (name : String)
  /-- A kind of values does not exist. -/
  | unknownKind (name : String)
  /-- A record that is written as an array ends too early. -/
  | shortRecord (length : Nat) (name : String) (fields : Nat)
  deriving DecidableEq

/-- A name between backquotes. -/
def quoteName (name : String) : String := "\x60" ++ name ++ "\x60"

namespace Found

/-- What a reading holds at a place, unless the text is damaged there or holds no value. -/
def ofReading? : Reading → Option Found
  | .null => some .null
  | .bool value => some (.bool value)
  | .number numeral =>
    if numeral.isOutOfRange then none
    else match numeral.wideInteger? with
      | some value => some (.integer value)
      | none => some .float
  | .string text => text.map .string
  | .array _ => some .sequence
  | .object _ => some .map
  | .damaged => none

/-- The text of what was found, where all numbers that are not whole have the same one. -/
def text : Found → String
  | .null => "null"
  | .bool value => "boolean " ++ quoteName (if value then "true" else "false")
  | .integer value => "integer " ++ quoteName (toString value)
  | .float => "floating point"
  | .string text => "string " ++ Text.Displayed.display text
  | .sequence => "sequence"
  | .map => "map"

end Found

/-- The text of what was wanted. -/
def Wanted.text : Wanted → String
  | .word => "i32"
  | .string => "a string"
  | .sequence => "a sequence"
  | .unit => "unit"
  | .record name => "struct " ++ name

namespace Fault

/-- The text that reports a fault. It stands in for the words of a reader of documents that knows
where it is: such a reader tells many kinds of damage apart, shows a number that is not whole, and
adds the line and the column. Here there is one text for all damage, one for all such numbers, and
no position. -/
def message : Fault → String
  | .syntaxError => "syntax error"
  | .wrongType found wanted => "invalid type: " ++ found.text ++ ", expected " ++ wanted.text
  | .wideInteger value =>
    "invalid value: integer " ++ quoteName (toString value) ++ ", expected i32"
  | .missingField name => "missing field " ++ quoteName name
  | .duplicateField name => "duplicate field " ++ quoteName name
  | .unknownKind name =>
    "unknown variant " ++ quoteName name ++ ", expected one of " ++
      String.intercalate ", " (ValueKind.all.map fun kind => quoteName kind.name)
  | .shortRecord length name fields =>
    "invalid length " ++ toString length ++ ", expected struct " ++ name ++ " with " ++
      toString fields ++ (if fields = 1 then " element" else " elements")

end Fault

/-- The fault of a reading that is not what is wanted. -/
def mismatch (wanted : Wanted) (reading : Reading) : Fault :=
  match Found.ofReading? reading with
  | some found => .wrongType found wanted
  | none => .syntaxError

end Disassembler.Load
