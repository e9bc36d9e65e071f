import Disassembler.Word

/-!
# Native functions

A native function is known to a program by a number only. The registry gives
the names, by number.
-/

namespace Disassembler

/-- The names of native functions. -/
structure Natives where
  /-- The names, in the order of the functions' numbers. -/
  names : Array String := #[]
  deriving DecidableEq

namespace Natives

/-- The name of a native function. -/
def name? (natives : Natives) (number : Word) : Option String := lookup? natives.names number

/-- The number of native functions that have names. -/
def size (natives : Natives) : Nat := natives.names.size

/-- Whether no native function has a name. -/
def isEmpty (natives : Natives) : Bool := natives.names.isEmpty

/-- A registry as it describes itself. -/
def description (natives : Natives) : String :=
  "IlDecoder(" ++ toString natives.size ++ " natives)"

end Natives

end Disassembler
