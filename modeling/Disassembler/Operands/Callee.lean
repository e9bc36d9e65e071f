import Disassembler.Opcode

/-!
# Callees

A call names the offset of the header of the function that it calls. The
header's opcode decides where the header keeps the number of arguments.
-/

namespace Disassembler

/-- What a call reads from the header of its function. -/
structure Callee where
  /-- The function that is called. -/
  function : Word
  /-- The number of arguments, as the header holds it. -/
  arguments : Word
  deriving DecidableEq

namespace Callee

/-- The word that lies `distance` words after an offset held in a word. Offsets that no word can
hold do not exist. -/
def wordAfter? (code : Array Word) (target : Word) (distance : Nat) : Option Word :=
  (Word.ofInt? (target.toInt + distance)).bind (lookup? code)

/-- Where a header with a layout keeps its number of arguments, counted from its opcode. Layouts of
other instructions have no such place. -/
def argumentsPlace? : Layout → Option Nat
  | .functionHeader => some 2
  | .dispatchHeader => some 3
  | _ => none

/-- The callee whose header is at an offset, if there is a header. -/
def find? (code : Array Word) (target : Word) : Option Callee := do
  let opcode ← Opcode.ofWord? (← wordAfter? code target 0)
  let place ← argumentsPlace? opcode.layout
  let function ← wordAfter? code target 1
  let arguments ← wordAfter? code target place
  return ⟨function, arguments⟩

end Callee

end Disassembler
