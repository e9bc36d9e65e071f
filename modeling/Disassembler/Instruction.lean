import Disassembler.Operands

/-!
# Instructions

Decoding finds the instruction at an offset of a stream, or the fault that
keeps it from being one. It reads the stream only. The next instruction always
starts further on, so a walk over a stream comes to an end.
-/

namespace Disassembler

/-- An instruction at an offset of a stream. -/
structure Instruction where
  /-- The offset of the opcode. -/
  offset : Nat
  /-- The opcode. -/
  opcode : Opcode
  /-- The operands. -/
  operands : Operands
  /-- The number of words after the opcode that belong to the instruction. -/
  operandWords : Nat
  deriving DecidableEq

namespace Instruction

/-- The number of words of an instruction. -/
def width (instruction : Instruction) : Nat := 1 + instruction.operandWords

/-- The offset right after an instruction. -/
def next (instruction : Instruction) : Nat := instruction.offset + instruction.width

/-- The instruction at an offset of a stream. -/
def decode (code : Array Word) (offset : Nat) : Except DecodeFault Instruction :=
  match code[offset]? with
  | none => .error (.truncated offset (offset + 1 - code.size))
  | some word =>
    match Opcode.ofWord? word with
    | none => .error (.illegalOpcode word)
    | some opcode =>
      match Operands.read opcode.layout ⟨code, offset⟩ 0 with
      | .ok (operands, operandWords) => .ok { offset, opcode, operands, operandWords }
      | .error fault => .error fault

/-- A decoded instruction starts at the offset that was decoded. -/
theorem offset_of_decode {code : Array Word} {offset : Nat} {instruction : Instruction}
    (decoded : decode code offset = .ok instruction) : instruction.offset = offset := by
  unfold decode at decoded
  split at decoded
  · cases decoded
  · split at decoded
    · cases decoded
    · split at decoded
      · cases decoded
        rfl
      · cases decoded

/-- The instruction after a decoded one starts further on. -/
theorem lt_next_of_decode {code : Array Word} {offset : Nat} {instruction : Instruction}
    (decoded : decode code offset = .ok instruction) : offset < instruction.next := by
  have start := offset_of_decode decoded
  unfold next width
  omega

end Instruction

end Disassembler
