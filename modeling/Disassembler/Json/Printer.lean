import Disassembler.Json.Quoted
import Disassembler.Json.Value

/-!
# Printing JSON

A value is printed without any blanks, or with one member or item on a line,
two blanks further in than the value that holds it. Empty arrays and objects
stay on one line.
-/

namespace Disassembler.Json

/-- The characters of a whole number. -/
def integerCharacters : Int → List Char
  | .ofNat value => Nat.toDigits 10 value
  | .negSucc value => '-' :: Nat.toDigits 10 (value + 1)

namespace Value

/-- The characters of null and of the two truth values. -/
def boolCharacters (value : Bool) : List Char :=
  if value then "true".toList else "false".toList

mutual

/-- The characters of a value without blanks. -/
def compact : Value → List Char
  | .null => "null".toList
  | .bool value => boolCharacters value
  | .integer value => integerCharacters value
  | .string text => Quoted.encode text.toList
  | .array items => '[' :: (compactItems items ++ [']'])
  | .object members => '{' :: (compactMembers members ++ ['}'])

/-- Items with commas between them. -/
def compactItems : List Value → List Char
  | [] => []
  | [value] => value.compact
  | value :: rest => value.compact ++ ',' :: compactItems rest

/-- Members with commas between them. -/
def compactMembers : List (String × Value) → List Char
  | [] => []
  | [(key, value)] => Quoted.encode key.toList ++ ':' :: value.compact
  | (key, value) :: rest =>
    Quoted.encode key.toList ++ ':' :: value.compact ++ ',' :: compactMembers rest

end

/-- A new line at a depth. -/
def newLine (depth : Nat) : List Char := '\n' :: List.replicate (2 * depth) ' '

mutual

/-- The characters of a value at a depth, with one item or member on a line. -/
def pretty (depth : Nat) : Value → List Char
  | .null => "null".toList
  | .bool value => boolCharacters value
  | .integer value => integerCharacters value
  | .string text => Quoted.encode text.toList
  | .array [] => ['[', ']']
  | .array (value :: rest) =>
    '[' :: (newLine (depth + 1) ++ value.pretty (depth + 1) ++
      prettyItems (depth + 1) rest ++ newLine depth ++ [']'])
  | .object [] => ['{', '}']
  | .object ((key, value) :: rest) =>
    '{' :: (newLine (depth + 1) ++ Quoted.encode key.toList ++ ':' :: ' ' ::
      value.pretty (depth + 1) ++ prettyMembers (depth + 1) rest ++ newLine depth ++ ['}'])

/-- Items after the first one, each with a comma before it. -/
def prettyItems (depth : Nat) : List Value → List Char
  | [] => []
  | value :: rest => ',' :: (newLine depth ++ value.pretty depth ++ prettyItems depth rest)

/-- Members after the first one, each with a comma before it. -/
def prettyMembers (depth : Nat) : List (String × Value) → List Char
  | [] => []
  | (key, value) :: rest =>
    ',' :: (newLine depth ++ Quoted.encode key.toList ++ ':' :: ' ' ::
      value.pretty depth ++ prettyMembers depth rest)

end

end Value

end Disassembler.Json
