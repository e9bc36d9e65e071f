import Disassembler.Proofs.Decoding

/-!
# What an instruction depends on

An instruction depends on its own words alone. Only calls look elsewhere, at the words of the header
that their callee has. So an instruction is decoded again, with the same operands, in every stream
that has the same words at these places, whatever else that stream holds and however long it is.
-/

namespace Disassembler

namespace Operands

open OperandReader

variable {words other : OperandWords} {read : Nat}

/-- The operands of an instruction that is no call depend on its words alone. -/
theorem local_read (layout : Layout) (single : layout ≠ .callSite)
    (multi : layout ≠ .multiCallSite) : (Operands.read layout).Local :=
  read_lawful local_law layout fun calls => absurd calls (not_or.mpr ⟨single, multi⟩)

/-- What the operands of a call hold. -/
theorem read_callSite_eq_ok_iff {operands : Operands} {after : Nat} :
    Operands.read .callSite words read = .ok (operands, after) ↔
      ∃ callee target, operands = .callSite callee target ∧
        readCallee words read = .ok ((callee, target), after) := by
  constructor
  · intro done
    obtain ⟨⟨callee, target⟩, between, called, done⟩ := bind_eq_ok_iff.mp done
    cases done
    exact ⟨callee, target, rfl, called⟩
  · rintro ⟨callee, target, rfl, called⟩
    exact bind_of_ok called

/-- What the operands of a call that is followed by types hold. -/
theorem read_multiCallSite_eq_ok_iff {operands : Operands} {after : Nat} :
    Operands.read .multiCallSite words read = .ok (operands, after) ↔
      ∃ callee target between, operands = .callSite callee target ∧
        readCallee words read = .ok ((callee, target), between) ∧
        skip callee.arguments.count words between = .ok ((), after) := by
  constructor
  · intro done
    obtain ⟨⟨callee, target⟩, between, called, done⟩ := bind_eq_ok_iff.mp done
    obtain ⟨_, _, skipped, done⟩ := bind_eq_ok_iff.mp done
    cases done
    exact ⟨callee, target, between, rfl, called, skipped⟩
  · rintro ⟨callee, target, between, rfl, called, skipped⟩
    exact (bind_of_ok called).trans (bind_of_ok skipped)

/-- A call finds the same callee where its target and its callee's header are the same. -/
theorem readCallee_of_same {callee : Callee} {target : Word} {after : Nat}
    (called : readCallee words read = .ok ((callee, target), after))
    (same : other.word? read = words.word? read)
    (found : Callee.find? other.code target = some callee) :
    readCallee other read = .ok ((callee, target), after) := by
  obtain ⟨atTarget, -, rfl⟩ := readCallee_eq_ok_iff.mp called
  exact readCallee_eq_ok_iff.mpr ⟨same.trans atTarget, found, rfl⟩

/-- The operands of an instruction are read again where its words are the same, and, for a call, its
callee is found again. -/
theorem read_of_same {layout : Layout} {operands : Operands} {after : Nat}
    (done : Operands.read layout words 0 = .ok (operands, after)) (holds : other.Holds after)
    (same : ∀ place < after, other.word? place = words.word? place)
    (found : layout = .callSite ∨ layout = .multiCallSite → ∀ callee target,
      words.word? 0 = some target → Callee.find? words.code target = some callee →
        Callee.find? other.code target = some callee) :
    Operands.read layout other 0 = .ok (operands, after) := by
  by_cases single : layout = .callSite
  · subst single
    obtain ⟨callee, target, rfl, called⟩ := read_callSite_eq_ok_iff.mp done
    obtain ⟨atTarget, header, last⟩ := readCallee_eq_ok_iff.mp called
    refine read_callSite_eq_ok_iff.mpr ⟨callee, target, rfl, ?_⟩
    exact readCallee_of_same called (same 0 (by omega)) (found (Or.inl rfl) _ _ atTarget header)
  by_cases multi : layout = .multiCallSite
  · subst multi
    obtain ⟨callee, target, between, rfl, called, skipped⟩ :=
      read_multiCallSite_eq_ok_iff.mp done
    obtain ⟨atTarget, header, last⟩ := readCallee_eq_ok_iff.mp called
    have forward := (local_skip _).forward skipped
    refine read_multiCallSite_eq_ok_iff.mpr ⟨callee, target, between, rfl, ?_, ?_⟩
    · exact readCallee_of_same called (same 0 (by omega)) (found (Or.inr rfl) _ _ atTarget header)
    · exact (local_skip _).transfer skipped holds fun place _ upper => same place upper
  · exact (local_read layout single multi).transfer done holds fun place _ upper => same place upper

end Operands

namespace Instruction

variable {code other : Array Word} {offset : Nat} {instruction : Instruction}

/-- The instruction at an offset reads a place of the stream outside its own words: it is a call,
and the place belongs to the header at its target. -/
def ReadsHeader (code : Array Word) (offset place : Nat) : Prop :=
  ∃ target slot, CallAt code offset target ∧ Callee.HeaderAt code target slot ∧
    place ∈ Callee.headerPlaces target slot

/-- A header that is read is in the stream. -/
theorem ReadsHeader.lt_size {place : Nat} (reads : ReadsHeader code offset place) :
    place < code.size := by
  obtain ⟨target, slot, -, header, among⟩ := reads
  exact header.place_lt among

/-- An instruction is decoded again where its own words, and those of the header that it reads, are
the same. -/
theorem decode_of_same (decoded : decode code offset = .ok instruction)
    (own : ∀ place, offset ≤ place → place < instruction.next → other[place]? = code[place]?)
    (header : ∀ place, ReadsHeader code offset place → other[place]? = code[place]?) :
    decode other offset = .ok instruction := by
  have inside := next_le_of_decode decoded
  have forward := lt_next_of_decode decoded
  obtain ⟨rfl, found, done⟩ := decode_eq_ok_iff.mp decoded
  have ends : instruction.next = instruction.offset + 1 + instruction.operandWords := by
    unfold next width
    omega
  refine decode_eq_ok_iff.mpr ⟨rfl, (own _ (Nat.le_refl _) forward).trans found, ?_⟩
  apply Operands.read_of_same done
  · -- The last word of the instruction is there, so the other stream is long enough as well.
    have last := own (instruction.next - 1) (by omega) (by omega)
    have present : instruction.next - 1 < code.size := by omega
    rw [Array.getElem?_eq_getElem present] at last
    have reaches := (Array.getElem?_eq_some_iff.mp last).1
    rw [OperandWords.holds_iff]
    omega
  · intro place taken
    exact own _ (by show instruction.offset ≤ instruction.offset + 1 + place; omega)
      (by show instruction.offset + 1 + place < _; omega)
  · intro calls callee target atTarget called
    obtain ⟨slot, headed, -⟩ := Callee.find?_eq_some_iff.mp called
    have call := callAt_of_layout found calls atTarget
    exact Callee.find?_of_same_header called headed fun place among =>
      header place ⟨target, slot, call, headed, among⟩

end Instruction

end Disassembler
