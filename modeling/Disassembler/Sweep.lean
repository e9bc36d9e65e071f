import Disassembler.Instruction
import Disassembler.LineTable
import Disassembler.Listing
import Disassembler.Operands.Text

/-!
# Sweeps

A sweep decodes the stream of an image from offset zero, each instruction
where the one before it ends, until the stream or the first fault ends it.
-/

namespace Disassembler

namespace Instruction

/-- The text of an instruction's operands. -/
def operandText (tables : NameTables) (natives : Natives) (instruction : Instruction) : String :=
  instruction.operands.text tables natives

/-- The text of an instruction. -/
def text (tables : NameTables) (natives : Natives) (instruction : Instruction) : String :=
  joinOperands instruction.opcode.mnemonic (instruction.operandText tables natives)

end Instruction

namespace Image

variable (image : Image) (natives : Natives)

/-- An instruction as it is listed under a source line. -/
def listed (source : LineEntry) (instruction : Instruction) : Line where
  offset := instruction.offset
  line := source.line
  file := image.fileName? source.file
  mnemonic := instruction.opcode.mnemonic
  operands := instruction.operandText image.toNameTables natives

/-- The listing from an offset on, for an image with source lines. -/
def sweepFrom (sourced : 0 < image.lines.size) (offset : Nat) : Listing :=
  if _inside : offset < image.code.size then
    let source := LineTable.locate image.lines sourced offset
    match _decoded : Instruction.decode image.code offset with
    | .ok instruction =>
      let rest := sweepFrom sourced instruction.next
      { rest with lines := image.listed natives source instruction :: rest.lines }
    | .error fault =>
      { stop := some ⟨offset, source.line, image.fileName? source.file, fault⟩ }
  else {}
termination_by image.code.size - offset
decreasing_by
  have := Instruction.lt_next_of_decode _decoded
  omega

/-- The listing of an image. There is none for an image that has code but no source lines. -/
def sweep? : Option Listing :=
  if sourced : 0 < image.lines.size then some (image.sweepFrom natives sourced 0)
  else if image.code.isEmpty then some {}
  else none

/-- An image has no listing exactly if it has code but no source lines. -/
theorem sweep?_eq_none_iff :
    image.sweep? natives = none ↔ image.lines = #[] ∧ image.code ≠ #[] := by
  unfold sweep?
  by_cases sourced : 0 < image.lines.size
  · have : image.lines ≠ #[] := by
      intro empty
      simp [empty] at sourced
    simp [sourced, this]
  · have empty : image.lines = #[] := Array.eq_empty_of_size_eq_zero (by omega)
    by_cases code : image.code = #[] <;> simp [empty, code]

end Image

end Disassembler
