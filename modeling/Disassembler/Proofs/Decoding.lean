import Disassembler.Proofs.Width

/-!
# Outcomes of decoding

What `Instruction.decode` gives at an offset, by what the stream holds there: nothing, a word that
stands for no opcode, a call without a header at its target, or an opcode whose instruction has an
extent. The cases exclude each other and leave none out, so an outcome tells its case.
-/

namespace Disassembler

namespace Instruction

/-- Outcomes of decoding can be compared. -/
instance decidableEqOutcome : DecidableEq (Except DecodeFault Instruction)
  | .ok first, .ok second => decidable_of_iff (first = second) ⟨congrArg _, Except.ok.inj⟩
  | .error first, .error second => decidable_of_iff (first = second) ⟨congrArg _, Except.error.inj⟩
  | .ok _, .error _ => isFalse nofun
  | .error _, .ok _ => isFalse nofun

variable {code : Array Word} {offset : Nat}

/-- Behind the stream there is no opcode. -/
theorem decode_of_size_le (outside : code.size ≤ offset) :
    decode code offset = .error (.truncated offset (offset + 1 - code.size)) := by
  unfold decode
  rw [Array.getElem?_eq_none outside]

/-- A word outside the opcode table is reported as it is. -/
theorem decode_of_illegal {word : Word} (found : code[offset]? = some word)
    (illegal : Opcode.ofWord? word = none) :
    decode code offset = .error (.illegalOpcode word) := by
  unfold decode
  simp only [found, illegal]

/-- Decoding succeeds with an instruction exactly if its opcode is at the offset and its operands
are read behind it. -/
theorem decode_eq_ok_iff {instruction : Instruction} :
    decode code offset = .ok instruction ↔
      instruction.offset = offset ∧ code[offset]? = some instruction.opcode.word ∧
        Operands.read instruction.opcode.layout ⟨code, offset⟩ 0 =
          .ok (instruction.operands, instruction.operandWords) := by
  constructor
  · intro decoded
    refine ⟨offset_of_decode decoded, ?_⟩
    unfold decode at decoded
    split at decoded
    · cases decoded
    · rename_i word found
      split at decoded
      · cases decoded
      · rename_i opcode known
        split at decoded
        · rename_i operands operandWords done
          cases decoded
          rw [found, Opcode.word_of_ofWord? known]
          exact ⟨rfl, done⟩
        · cases decoded
  · rintro ⟨rfl, found, done⟩
    unfold decode
    simp only [found, Opcode.ofWord?_word, done]

/-- A fault of the operands is the fault of the instruction. -/
theorem decode_of_operands_fault {opcode : Opcode} {fault : DecodeFault}
    (found : code[offset]? = some opcode.word)
    (failed : Operands.read opcode.layout ⟨code, offset⟩ 0 = .error fault) :
    decode code offset = .error fault := by
  unfold decode
  simp only [found, Opcode.ofWord?_word, failed]

/-- The instruction at an offset is truncated, by one word at least. -/
def Truncated (code : Array Word) (offset : Nat) : Prop :=
  ∃ needed, 0 < needed ∧ decode code offset = .error (.truncated offset needed)

/-- A truncated instruction has no other fault. -/
theorem Truncated.fault_eq {fault : DecodeFault} (truncated : Truncated code offset)
    (failed : decode code offset = .error fault) :
    ∃ needed, 0 < needed ∧ fault = .truncated offset needed := by
  obtain ⟨needed, positive, failed'⟩ := truncated
  rw [failed] at failed'
  cases failed'
  exact ⟨needed, positive, rfl⟩

/-- A truncated instruction is not decoded. -/
theorem Truncated.not_decoded (truncated : Truncated code offset) (instruction : Instruction) :
    decode code offset ≠ .ok instruction := by
  obtain ⟨_, _, failed⟩ := truncated
  intro decoded
  rw [failed] at decoded
  cases decoded

/-- A call: one of the two opcodes with a target, and the target. -/
structure CallAt (code : Array Word) (offset : Nat) (target : Word) : Prop where
  /-- The opcode is that of a call. -/
  opcode : code[offset]? = some Opcode.call.word ∨ code[offset]? = some Opcode.multiCall.word
  /-- The target is the word behind the opcode. -/
  target : code[offset + 1]? = some target

/-- A call without a header at its target is a bad call, whatever follows it. -/
theorem decode_of_no_header {target : Word} (called : CallAt code offset target)
    (absent : ¬ ∃ slot, Callee.HeaderAt code target slot) :
    decode code offset = .error (.badCallTarget target) := by
  have missing := Callee.find?_eq_none_iff.mpr absent
  have failed : Operands.readCallee ⟨code, offset⟩ 0 = .error (.badCallTarget target) :=
    Operands.readCallee_of_no_header called.target missing
  obtain found | found := called.opcode
  · apply decode_of_operands_fault found
    rw [((Opcode.layout_named _).1).mpr rfl]
    exact OperandReader.bind_of_error failed
  · apply decode_of_operands_fault found
    rw [((Opcode.layout_named _).2.1).mpr rfl]
    exact OperandReader.bind_of_error failed

/-- An instruction whose operands take a number of words is decoded if these words are in the
stream, and is truncated otherwise. -/
theorem decode_of_takes {opcode : Opcode} {behind : Nat} (found : code[offset]? = some opcode.word)
    (taken : (Operands.read opcode.layout).Takes ⟨code, offset⟩ 0 behind) :
    (offset + 1 + behind ≤ code.size ∧ ∃ operands,
        decode code offset = .ok ⟨offset, opcode, operands, behind⟩) ∨
      code.size < offset + 1 + behind ∧ Truncated code offset := by
  obtain ⟨done, truncates⟩ := taken
  rw [Nat.zero_add, OperandWords.holds_iff] at done truncates
  by_cases fits : offset + 1 + behind ≤ code.size
  · obtain ⟨operands, read⟩ := done fits
    exact Or.inl ⟨fits, operands, decode_eq_ok_iff.mpr ⟨rfl, found, read⟩⟩
  · obtain ⟨needed, positive, failed⟩ := truncates fits
    exact Or.inr ⟨by omega, needed, positive, decode_of_operands_fault found failed⟩

/-- The opcode at an offset is that of a call. -/
def Calls (code : Array Word) (offset : Nat) : Prop :=
  code[offset]? = some Opcode.call.word ∨ code[offset]? = some Opcode.multiCall.word

/-- Whether there is the opcode of a call can be decided. -/
instance decidableCalls : Decidable (Calls code offset) :=
  inferInstanceAs (Decidable (_ ∨ _))

/-- An opcode with the layout of a call is that of a call. -/
theorem calls_of_layout {opcode : Opcode} (found : code[offset]? = some opcode.word)
    (calls : opcode.layout = .callSite ∨ opcode.layout = .multiCallSite) : Calls code offset := by
  obtain ⟨single, multi, -⟩ := Opcode.layout_named opcode
  obtain calls | calls := calls
  · exact Or.inl (single.mp calls ▸ found)
  · exact Or.inr (multi.mp calls ▸ found)

/-- An opcode with the layout of a call, and a word behind it, is a call. -/
theorem callAt_of_layout {opcode : Opcode} {target : Word}
    (found : code[offset]? = some opcode.word)
    (calls : opcode.layout = .callSite ∨ opcode.layout = .multiCallSite)
    (atTarget : code[offset + 1]? = some target) : CallAt code offset target :=
  ⟨calls_of_layout found calls, atTarget⟩

/-- The operands behind an opcode agree with its extent, unless it calls where there is no
header. -/
theorem spans_of_opcode {opcode : Opcode} (found : code[offset]? = some opcode.word)
    (header : ∀ target, CallAt code offset target → ∃ slot, Callee.HeaderAt code target slot) :
    Operands.Spans (Operands.read opcode.layout) ⟨code, offset⟩
      (opcode.layout.extent? code offset) := by
  have inside : OperandWords.Holds ⟨code, offset⟩ 0 := (Array.getElem?_eq_some_iff.mp found).1
  apply Operands.spans_read opcode.layout inside
  intro calls target atTarget
  have called := callAt_of_layout found calls atTarget
  cases callee : Callee.find? code target with
  | none => exact absurd (header target called) (Callee.find?_eq_none_iff.mp callee)
  | some value => exact ⟨value, rfl⟩

/-- An instruction whose opcode is there, and whose callee is there if it calls one, is decoded if
its extent is known and lies in the stream. It is truncated otherwise. -/
theorem decode_of_opcode {opcode : Opcode} (found : code[offset]? = some opcode.word)
    (header : ∀ target, CallAt code offset target → ∃ slot, Callee.HeaderAt code target slot) :
    (∃ instruction width, decode code offset = .ok instruction ∧
        opcode.layout.extent? code offset = some width ∧ offset + width ≤ code.size ∧
        instruction.next = offset + width) ∨
      Truncated code offset ∧ ∀ width, opcode.layout.extent? code offset = some width →
        code.size < offset + width := by
  have spans := spans_of_opcode found header
  cases extent : opcode.layout.extent? code offset with
  | none =>
    rw [extent] at spans
    obtain ⟨needed, positive, failed⟩ := spans
    refine Or.inr ⟨⟨needed, positive, decode_of_operands_fault found failed⟩, ?_⟩
    intro width known
    cases known
  | some width =>
    rw [extent] at spans
    obtain ⟨behind, rfl, taken⟩ := spans
    obtain ⟨fits, operands, decoded⟩ | ⟨missing, truncated⟩ := decode_of_takes found taken
    · exact Or.inl ⟨_, _, decoded, rfl, by omega, rfl⟩
    · refine Or.inr ⟨truncated, ?_⟩
      intro width known
      cases known
      omega

/-- A decoded call has a header at its target. -/
theorem header_of_decode {instruction : Instruction} {target : Word}
    (decoded : decode code offset = .ok instruction) (called : CallAt code offset target) :
    ∃ slot, Callee.HeaderAt code target slot := by
  cases found : Callee.find? code target with
  | none =>
    rw [decode_of_no_header called (Callee.find?_eq_none_iff.mp found)] at decoded
    cases decoded
  | some callee =>
    obtain ⟨slot, header, -⟩ := Callee.find?_eq_some_iff.mp found
    exact ⟨slot, header⟩

/-- A decoded instruction has the extent of its opcode. -/
theorem extent?_of_decode {opcode : Opcode} {instruction : Instruction}
    (found : code[offset]? = some opcode.word)
    (header : ∀ target, CallAt code offset target → ∃ slot, Callee.HeaderAt code target slot)
    (decoded : decode code offset = .ok instruction) :
    ∃ width, opcode.layout.extent? code offset = some width ∧ offset + width ≤ code.size ∧
      instruction.next = offset + width := by
  obtain ⟨_, width, decoded', extent, fits, ends⟩ | ⟨truncated, -⟩ := decode_of_opcode found header
  · rw [decoded] at decoded'
    cases decoded'
    exact ⟨width, extent, fits, ends⟩
  · exact absurd decoded (truncated.not_decoded instruction)

/-- A decoded instruction lies in the stream. -/
theorem next_le_of_decode {instruction : Instruction}
    (decoded : decode code offset = .ok instruction) : instruction.next ≤ code.size := by
  have found := (decode_eq_ok_iff.mp decoded).2.1
  obtain ⟨width, -, fits, ends⟩ :=
    extent?_of_decode found (fun _ => header_of_decode decoded) decoded
  rw [ends]
  exact fits

/-- A decoded instruction starts in the stream. -/
theorem lt_size_of_decode {instruction : Instruction}
    (decoded : decode code offset = .ok instruction) : offset < code.size :=
  Nat.lt_of_lt_of_le (lt_next_of_decode decoded) (next_le_of_decode decoded)

/-- What the stream holds where decoding fails, for each kind of fault. -/
theorem fault_cases {fault : DecodeFault} (failed : decode code offset = .error fault) :
    (∃ word, fault = .illegalOpcode word ∧ code[offset]? = some word ∧
        Opcode.ofWord? word = none) ∨
      (∃ target, fault = .badCallTarget target ∧ CallAt code offset target ∧
        ¬ ∃ slot, Callee.HeaderAt code target slot) ∨
      ∃ needed, 0 < needed ∧ fault = .truncated offset needed := by
  cases found : code[offset]? with
  | none =>
    have outside := Array.getElem?_eq_none_iff.mp found
    have truncated : Truncated code offset := ⟨_, by omega, decode_of_size_le outside⟩
    exact Or.inr (Or.inr (truncated.fault_eq failed))
  | some word =>
    cases known : Opcode.ofWord? word with
    | none =>
      rw [decode_of_illegal found known] at failed
      cases failed
      exact Or.inl ⟨word, rfl, rfl, known⟩
    | some opcode =>
      by_cases bad : ∃ target, CallAt code offset target ∧
          ¬ ∃ slot, Callee.HeaderAt code target slot
      · obtain ⟨target, called, absent⟩ := bad
        rw [decode_of_no_header called absent] at failed
        cases failed
        exact Or.inr (Or.inl ⟨target, rfl, called, absent⟩)
      · rw [← Opcode.word_of_ofWord? known] at found
        have header : ∀ target, CallAt code offset target →
            ∃ slot, Callee.HeaderAt code target slot := by
          intro target called
          exact Classical.byContradiction fun absent => bad ⟨target, called, absent⟩
        obtain ⟨_, _, decoded, -⟩ | ⟨truncated, -⟩ := decode_of_opcode found header
        · rw [failed] at decoded
          cases decoded
        · exact Or.inr (Or.inr (truncated.fault_eq failed))

/-- Where an instruction is truncated, the stream has ended before it, or its opcode is there and
reading its operands fails. -/
theorem truncated_cases {start needed : Nat}
    (failed : decode code offset = .error (.truncated start needed)) :
    (code.size ≤ offset ∧ start = offset ∧ needed = offset + 1 - code.size) ∨
      ∃ opcode : Opcode, code[offset]? = some opcode.word ∧
        Operands.read opcode.layout ⟨code, offset⟩ 0 = .error (.truncated start needed) := by
  cases found : code[offset]? with
  | none =>
    have outside := Array.getElem?_eq_none_iff.mp found
    rw [decode_of_size_le outside] at failed
    cases failed
    exact Or.inl ⟨outside, rfl, rfl⟩
  | some word =>
    cases known : Opcode.ofWord? word with
    | none =>
      rw [decode_of_illegal found known] at failed
      cases failed
    | some opcode =>
      rw [← Opcode.word_of_ofWord? known] at found ⊢
      refine Or.inr ⟨opcode, rfl, ?_⟩
      cases read : Operands.read opcode.layout ⟨code, offset⟩ 0 with
      | ok result =>
        have decoded : decode code offset = .ok ⟨offset, opcode, result.1, result.2⟩ :=
          decode_eq_ok_iff.mpr ⟨rfl, found, read⟩
        rw [decoded] at failed
        cases failed
      | error fault =>
        rw [decode_of_operands_fault found read] at failed
        rw [Except.error.inj failed]

/-- What decides the outcome of decoding at an offset. -/
structure Outcomes (code : Array Word) (offset : Nat) : Prop where
  /-- An illegal opcode is a word in the stream that is negative or not below the number of
  opcodes. -/
  illegal : ∀ word, decode code offset = .error (.illegalOpcode word) ↔
    code[offset]? = some word ∧ ¬ (0 ≤ word.toInt ∧ word.toInt < Opcode.count)
  /-- A bad call is a call whose target is in the stream, but no header there. What follows the
  target does not matter. -/
  badCall : ∀ target, decode code offset = .error (.badCallTarget target) ↔
    CallAt code offset target ∧ ¬ ∃ slot, Callee.HeaderAt code target slot
  /-- Every other fault is an instruction that is truncated by one word at least. -/
  fault : ∀ fault, decode code offset = .error fault →
    (∃ word, fault = .illegalOpcode word) ∨ (∃ target, fault = .badCallTarget target) ∨
      ∃ needed, 0 < needed ∧ fault = .truncated offset needed
  /-- A decoded instruction has the opcode at the offset, and ends behind it in the stream. -/
  decoded : ∀ instruction, decode code offset = .ok instruction →
    instruction.offset = offset ∧ code[offset]? = some instruction.opcode.word ∧
      offset < instruction.next ∧ instruction.next ≤ code.size

/-- The stream decides the outcome at every offset. -/
theorem outcomes (code : Array Word) (offset : Nat) : Outcomes code offset where
  illegal word := by
    constructor
    · intro failed
      obtain ⟨word', same, found, illegal⟩ | ⟨_, other, -⟩ | ⟨_, -, other⟩ := fault_cases failed
      · cases same
        exact ⟨found, Opcode.ofWord?_eq_none_iff.mp illegal⟩
      · cases other
      · cases other
    · rintro ⟨found, outside⟩
      exact decode_of_illegal found (Opcode.ofWord?_eq_none_iff.mpr outside)
  badCall target := by
    constructor
    · intro failed
      obtain ⟨_, other, -⟩ | ⟨target', same, called, absent⟩ | ⟨_, -, other⟩ := fault_cases failed
      · cases other
      · cases same
        exact ⟨called, absent⟩
      · cases other
    · rintro ⟨called, absent⟩
      exact decode_of_no_header called absent
  fault fault failed := by
    obtain ⟨word, same, -⟩ | ⟨target, same, -⟩ | truncated := fault_cases failed
    · exact Or.inl ⟨word, same⟩
    · exact Or.inr (Or.inl ⟨target, same⟩)
    · exact Or.inr (Or.inr truncated)
  decoded instruction decoded :=
    ⟨offset_of_decode decoded, (decode_eq_ok_iff.mp decoded).2.1, lt_next_of_decode decoded,
      next_le_of_decode decoded⟩

end Instruction

end Disassembler
