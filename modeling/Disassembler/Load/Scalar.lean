import Disassembler.Load.Fault

/-!
# Words, strings, tables and kinds of values

The parts of a document that are not records. A word is never made out of a
number with a fraction or an exponent, nor out of one that does not fit.
-/

namespace Disassembler.Load

open Json

/-- Loads a word. -/
def word : Reading → Except Fault Word
  | .number numeral =>
    match Found.ofReading? (.number numeral) with
    | some (.integer value) =>
      match Word.ofInt? value with
      | some word => .ok word
      | none => .error (.wideInteger value)
    | some found => .error (.wrongType found .word)
    | none => .error .syntaxError
  | reading => .error (mismatch .word reading)

/-- Loads a string. -/
def string : Reading → Except Fault String
  | .string (some text) => .ok text
  | reading => .error (mismatch .string reading)

/-- Loads null as nothing, and anything else as it is loaded alone. -/
def nullable {α : Type} (load : Reading → Except Fault α) : Reading → Except Fault (Option α)
  | .null => .ok none
  | reading => some <$> load reading

/-- Loads items one after the other. -/
def items {α : Type} (load : Reading → Except Fault α) : List Reading → Except Fault (List α)
  | [] => .ok []
  | reading :: rest =>
    match load reading with
    | .error fault => .error fault
    | .ok value =>
      match items load rest with
      | .error fault => .error fault
      | .ok values => .ok (value :: values)

/-- Loads a table. -/
def table {α : Type} (load : Reading → Except Fault α) : Reading → Except Fault (Array α)
  | .array readings => List.toArray <$> items load readings
  | reading => .error (mismatch .sequence reading)

/-- Loads the name of a kind of values, if there is a text for it. -/
def kindName : Option String → Except Fault ValueKind
  | some name =>
    match ValueKind.ofName? name with
    | some kind => .ok kind
    | none => .error (.unknownKind name)
  | none => .error .syntaxError

/-- Loads a kind of values, which is its name alone, or an object whose only key is its name and
whose only value is null. -/
def kind : Reading → Except Fault ValueKind
  | .string text => kindName text
  | .object ((key, value) :: rest) =>
    match kindName key with
    | .error fault => .error fault
    | .ok kind =>
      match value, rest with
      | .null, [] => .ok kind
      | .null, _ => .error .syntaxError
      | _, _ => .error (mismatch .unit value)
  | _ => .error .syntaxError

end Disassembler.Load
