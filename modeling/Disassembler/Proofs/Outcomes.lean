import Disassembler.Proofs.MachineAgreement

/-!
# The outcomes of the machine

What the stream holds at an offset decides the outcome of decoding there, and the width of the
instruction decides whether it fits. A machine with 64-bit cursors has the same outcomes, and all
its operations on cursors are exact.
-/

namespace Disassembler

/-- Where an opcode has a fixed number of operand words, they and the opcode are its extent. -/
theorem Layout.extent?_of_fixedWidth? {layout : Layout} {width : Nat} (code : Array Word)
    (offset : Nat) (fixed : layout.fixedWidth? = some width) :
    layout.extent? code offset = some (1 + width) := by
  cases layout <;> cases fixed <;> rfl

namespace Machine

/-- The stream decides the outcome of decoding at every offset. At an offset behind which there is a
cursor, a machine has the same outcome, with the operands as text, and each of its operations on
cursors is exact. -/
theorem decode_outcomes (image : Image) (natives : Natives) (offset : Nat) :
    Instruction.Outcomes image.code offset ∧
      (offset + 1 < UInt64.size → Addressable image.code →
        decode image natives offset = some ((Instruction.decode image.code offset).map
          (·.rendered image.toNameTables natives)) ∧
        ∀ instruction, Instruction.decode image.code offset = .ok instruction →
          sub? instruction.next instruction.offset = some instruction.width) := by
  refine ⟨Instruction.outcomes image.code offset, ?_⟩
  intro cursor addressable
  refine ⟨decode_eq image natives cursor addressable, ?_⟩
  intro instruction decoded
  have inside := Instruction.next_le_of_decode decoded
  have width : instruction.next - instruction.offset = instruction.width :=
    Nat.add_sub_cancel_left ..
  have fits := addressable.cursor_lt inside
  rw [← width]
  exact sub?_of_le (Nat.le_add_right _ _) (by omega)

/-- A call without a header at its target is a bad call also where its types are missing. -/
theorem decode_outcomes_missing_types :
    0 + 1 < UInt64.size ∧ Addressable #[37, 9] ∧
      decode { code := #[37, 9] } {} 0 = some (.error (.badCallTarget 9)) := by
  have cursor : 0 + 1 < UInt64.size := by decide
  have addressable : Addressable #[37, 9] := by
    unfold Addressable
    decide
  obtain ⟨outcomes, machine⟩ := decode_outcomes { code := #[37, 9] } {} 0
  have absent : ¬ ∃ slot, Callee.HeaderAt #[37, 9] 9 slot :=
    Callee.find?_eq_none_iff.mp (by decide +kernel)
  have bad := (outcomes.badCall 9).mpr ⟨⟨Or.inr (by decide +kernel), rfl⟩, absent⟩
  refine ⟨cursor, addressable, ?_⟩
  rw [(machine cursor addressable).1, bad]
  rfl

/-- An instruction whose opcode is in the stream, and whose callee is there if it calls one, is
decoded exactly if its extent is known and lies in the stream. Then it ends where the extent does,
and otherwise it is truncated. -/
theorem decode_width (image : Image) (natives : Natives) {offset : Nat} {opcode : Opcode}
    (found : image.code[offset]? = some opcode.word)
    (header : ∀ target, Instruction.CallAt image.code offset target →
      ∃ slot, Callee.HeaderAt image.code target slot) :
    ((∃ instruction, Instruction.decode image.code offset = .ok instruction) ↔
        ∃ width, opcode.layout.extent? image.code offset = some width ∧
          offset + width ≤ image.code.size) ∧
      (∀ instruction width, Instruction.decode image.code offset = .ok instruction →
        opcode.layout.extent? image.code offset = some width →
          instruction.next = offset + width) ∧
      ((¬ ∃ instruction, Instruction.decode image.code offset = .ok instruction) →
        Instruction.Truncated image.code offset) ∧
      (∀ width, opcode.layout.fixedWidth? = some width →
        opcode.layout.extent? image.code offset = some (1 + width)) ∧
      (Addressable image.code →
        decode image natives offset = some ((Instruction.decode image.code offset).map
          (·.rendered image.toNameTables natives))) := by
  have outcome := Instruction.decode_of_opcode found header
  refine ⟨⟨?_, ?_⟩, ?_, ?_, ?_, ?_⟩
  · rintro ⟨instruction, decoded⟩
    obtain ⟨width, extent, fits, -⟩ := Instruction.extent?_of_decode found header decoded
    exact ⟨width, extent, fits⟩
  · rintro ⟨width, extent, fits⟩
    obtain ⟨instruction, _, decoded, -⟩ | ⟨-, outside⟩ := outcome
    · exact ⟨instruction, decoded⟩
    · exact absurd fits (Nat.not_le.mpr (outside width extent))
  · intro instruction width decoded extent
    obtain ⟨width', extent', -, ends⟩ := Instruction.extent?_of_decode found header decoded
    cases extent.symm.trans extent'
    exact ends
  · intro undecoded
    obtain ⟨instruction, _, decoded, -⟩ | ⟨truncated, -⟩ := outcome
    · exact absurd ⟨instruction, decoded⟩ undecoded
    · exact truncated
  · intro width fixed
    exact Layout.extent?_of_fixedWidth? image.code offset fixed
  · intro addressable
    have inside := (Array.getElem?_eq_some_iff.mp found).1
    exact decode_eq image natives (addressable.cursor_lt (Nat.le_of_lt inside)) addressable

/-- A function with one parameter, and a call of it that is followed by a type. -/
def calling : Image := { code := #[40, 0, 1, 7, 0, 0, 0, 37, 0, 5] }

/-- A call of a function with one parameter has three words. -/
theorem decode_width_multiCall :
    calling.code[7]? = some Opcode.multiCall.word ∧
      (∀ target, Instruction.CallAt calling.code 7 target →
        ∃ slot, Callee.HeaderAt calling.code target slot) ∧
      ∃ instruction, Instruction.decode calling.code 7 = .ok instruction ∧
        instruction.next = 10 := by
  have found : calling.code[7]? = some Opcode.multiCall.word := by decide +kernel
  have header : ∀ target, Instruction.CallAt calling.code 7 target →
      ∃ slot, Callee.HeaderAt calling.code target slot := by
    intro target called
    cases called.target
    exact ⟨2, by decide, Or.inl ⟨by decide +kernel, rfl⟩, by decide, by decide⟩
  have extent : Opcode.multiCall.layout.extent? calling.code 7 = some 3 := by decide +kernel
  obtain ⟨succeeds, ends, -⟩ := decode_width calling {} found header
  obtain ⟨instruction, decoded⟩ := succeeds.mpr ⟨3, extent, by decide⟩
  exact ⟨found, header, instruction, decoded, ends instruction 3 decoded extent⟩

end Machine

end Disassembler
