import Disassembler.Proofs.Path

/-!
# Streams between other words

A stream can stand between other words. What its instructions say does not change by that: words in
front of them move their offsets, and words behind them are first used up by an instruction that was
truncated, which needs fewer words by as many. `OperandReader.Embeds` says so of a reader, and
`Instruction.decode_between` and `Instruction.decode_between_of_truncated` of whole instructions.
Calls are different: their targets are offsets of the whole stream, so they allow for words behind
them only.
-/

namespace Disassembler

/-- A word of a stream moves by the words in front. -/
theorem getElem?_between {front code back : Array Word} {place : Nat} (inside : place < code.size) :
    (front ++ code ++ back)[front.size + place]? = code[place]? := by
  rw [Array.getElem?_append_left (by rw [Array.size_append]; omega),
    Array.getElem?_append_right (Nat.le_add_right _ _), Nat.add_sub_cancel_left]

namespace OperandWords

variable {words : OperandWords} {front back : Array Word} {read stop : Nat}

/-- The same operand words, with other words in front of the stream and behind it. -/
def between (words : OperandWords) (front back : Array Word) : OperandWords where
  code := front ++ words.code ++ back
  offset := front.size + words.offset

/-- The places of operand words move by the words in front. -/
theorem place_between : (words.between front back).place read = front.size + words.place read := by
  simp only [between, place, Nat.add_assoc]

/-- The stream is longer by the words in front and behind. -/
theorem size_between :
    (words.between front back).code.size = front.size + words.code.size + back.size := by
  simp only [between, Array.size_append]

/-- Operand words that the stream holds are still held. -/
theorem Holds.between (holds : words.Holds read) : (words.between front back).Holds read := by
  unfold Holds at *
  rw [place_between, size_between]
  omega

/-- Operand words that the stream holds are the same. -/
theorem word?_between (holds : words.Holds (read + 1)) :
    (words.between front back).word? read = words.word? read := by
  unfold word?
  rw [place_between]
  exact getElem?_between holds

/-- The words behind the stream count towards the words that a read lacks. -/
theorem truncatedBefore_between :
    (words.between front back).truncatedBefore (front.size + stop) =
      .truncated (front.size + words.offset) (stop - words.code.size - back.size) := by
  unfold truncatedBefore
  rw [size_between]
  congr 1
  omega

end OperandWords

namespace OperandReader

variable {α β : Type} {front back : Array Word} {reader : OperandReader α}
  {next : α → OperandReader β}

/-- A reader can be embedded between other words: it reads there what it reads without them, and an
instruction that is truncated needs fewer words by those behind it, as long as these do not
suffice. -/
structure Embeds (front back : Array Word) (reader : OperandReader α) : Prop where
  /-- The reader succeeds. -/
  done : ∀ {words read value after}, reader words read = .ok (value, after) →
    reader (words.between front back) read = .ok (value, after)
  /-- The reader lacks words. -/
  truncated : ∀ {words read offset needed}, reader words read = .error (.truncated offset needed) →
    back.size < needed →
    reader (words.between front back) read =
      .error (.truncated (front.size + offset) (needed - back.size))

/-- A local reader reads the same words between others, if the stream holds them. -/
theorem Local.between (depends : reader.Local) {words : OperandWords} {read after : Nat} {value : α}
    (done : reader words read = .ok (value, after)) (holds : words.Holds after) :
    reader (words.between front back) read = .ok (value, after) := by
  apply depends.transfer done holds.between
  intro place _ before
  exact OperandWords.word?_between (holds.mono before)

/-- A read that needs the stream to reach up to a place still needs it if the words behind the
stream are too few, and lacks fewer words by these. -/
theorem truncatedBefore_eq (front : Array Word) {words : OperandWords} {offset needed stop : Nat}
    (fault : words.truncatedBefore stop = .truncated offset needed) (short : back.size < needed) :
    (words.between front back).code.size < front.size + stop ∧
      (words.between front back).truncatedBefore (front.size + stop) =
        .truncated (front.size + offset) (needed - back.size) := by
  cases fault
  rw [OperandWords.size_between]
  exact ⟨by omega, OperandWords.truncatedBefore_between⟩

/-- One word is read between others. -/
theorem embeds_word : word.Embeds front back where
  done done := by
    obtain ⟨found, rfl⟩ := word_eq_ok_iff.mp done
    exact local_word.between done (OperandWords.holds_of_word? found)
  truncated {words read offset needed} failed short := by
    cases found : words.word? read with
    | some value =>
      rw [word_eq_ok_iff.mpr ⟨found, rfl⟩] at failed
      cases failed
    | none =>
      rw [word_of_missing found] at failed
      obtain ⟨beyond, same⟩ := truncatedBefore_eq front (Except.error.inj failed) short
      rw [← Nat.add_assoc, ← OperandWords.place_between] at beyond same
      have missing : ¬ (words.between front back).Holds (read + 1) := Nat.not_le_of_lt beyond
      rw [word_of_missing (OperandWords.word?_eq_none_iff.mpr missing), same]

/-- A block is passed over between other words. -/
theorem embeds_skip (size : Nat) : (skip size).Embeds front back where
  done done := by
    obtain ⟨holds, rfl⟩ := skip_eq_ok_iff.mp done
    exact (local_skip size).between done holds
  truncated {words read offset needed} failed short := by
    unfold skip at failed ⊢
    split at failed
    · cases failed
    · obtain ⟨beyond, same⟩ := truncatedBefore_eq front (Except.error.inj failed) short
      rw [← OperandWords.place_between] at beyond same
      rw [if_neg (Nat.not_le_of_lt beyond), same]

/-- A list is read between other words. It lacks one word only, so no words can be behind the stream
that do not suffice. -/
theorem embeds_list (length : Nat) : (list length).Embeds front back where
  done done := by
    obtain ⟨holds, rfl, -⟩ := list_eq_ok_iff.mp done
    exact (local_list length).between done holds
  truncated {words read offset needed} failed short := by
    unfold list at failed ⊢
    split at failed
    · cases failed
    · rename_i missing
      obtain ⟨beyond, same⟩ := truncatedBefore_eq front (Except.error.inj failed) short
      have size : (words.between front back).code.size = front.size + words.code.size + back.size :=
        OperandWords.size_between
      have behind : (words.between front back).code.size + 1 =
          front.size + (words.code.size + 1) := by omega
      rw [if_neg, behind, same]
      rw [OperandWords.place_between]
      omega

/-- Sequences are read between other words if both parts are. -/
theorem Embeds.bind (head : reader.Embeds front back)
    (tail : ∀ value, (next value).Embeds front back) : (reader >>= next).Embeds front back where
  done done := by
    obtain ⟨middle, between, first, second⟩ := bind_eq_ok_iff.mp done
    rw [bind_of_ok (head.done first)]
    exact (tail middle).done second
  truncated {words read offset needed} failed short := by
    cases first : reader words read with
    | error fault =>
      rw [bind_of_error first] at failed
      cases failed
      exact bind_of_error (head.truncated first short)
    | ok result =>
      rw [bind_of_ok first] at failed
      rw [bind_of_ok (head.done first)]
      exact (tail result.1).truncated failed short

/-- To be embedded is a law of readers. -/
theorem embeds_law (front back : Array Word) : Law fun _ reader => reader.Embeds front back where
  pure value :=
    { done := fun done => by
        cases done
        rfl
      truncated := fun failed => by cases failed }
  bind := Embeds.bind
  word := embeds_word
  skip := embeds_skip
  list := embeds_list

end OperandReader

namespace Operands

open OperandReader

variable {front back : Array Word}

/-- A callee is found in a stream with more words behind it. -/
theorem embeds_readCallee : readCallee.Embeds #[] back where
  done {words read value after} done := by
    obtain ⟨callee, target⟩ := value
    obtain ⟨atTarget, header, rfl⟩ := readCallee_eq_ok_iff.mp done
    -- The header that the call points at is complete, so words behind the stream add nothing to it.
    have holds := OperandWords.holds_of_word? atTarget
    have found : (words.between #[] back).word? read = some target :=
      (OperandWords.word?_between holds).trans atTarget
    have again : Callee.find? (words.between #[] back).code target = some callee := by
      show Callee.find? (#[] ++ words.code ++ back) target = some callee
      rw [Array.empty_append]
      exact Callee.find?_append header back
    exact readCallee_eq_ok_iff.mpr ⟨found, again, rfl⟩
  truncated {words read offset needed} failed short := by
    cases found : words.word? read with
    | none =>
      have missing := word_of_missing found
      unfold readCallee at failed ⊢
      rw [bind_of_error missing] at failed
      rw [Except.error.inj failed] at missing
      exact bind_of_error (embeds_word.truncated missing short)
    | some target =>
      cases header : Callee.find? words.code target with
      | none =>
        rw [readCallee_of_no_header found header] at failed
        cases failed
      | some callee =>
        rw [readCallee_eq_ok_iff.mpr ⟨found, header, rfl⟩] at failed
        cases failed

/-- The operands of a layout can be embedded between other words, if those of calls have no words in
front. -/
theorem embeds_read (layout : Layout)
    (calls : layout = .callSite ∨ layout = .multiCallSite → front = #[]) :
    (Operands.read layout).Embeds front back := by
  apply read_lawful (embeds_law front back)
  intro called
  rw [calls called]
  exact embeds_readCallee

end Operands

namespace Instruction

variable {code front back : Array Word} {offset : Nat} {instruction : Instruction}

/-- The same instruction further on in a stream. -/
def moved (distance : Nat) (instruction : Instruction) : Instruction :=
  { instruction with offset := distance + instruction.offset }

/-- An instruction is decoded between other words as it is without them, unless it is a call with
words in front. -/
theorem decode_between (decoded : decode code offset = .ok instruction)
    (calls : Calls code offset → front = #[]) :
    decode (front ++ code ++ back) (front.size + offset) = .ok (instruction.moved front.size) := by
  obtain ⟨rfl, found, done⟩ := decode_eq_ok_iff.mp decoded
  have embeds : (Operands.read instruction.opcode.layout).Embeds front back :=
    Operands.embeds_read _ fun called => calls (calls_of_layout found called)
  have inside : instruction.offset < code.size := (Array.getElem?_eq_some_iff.mp found).1
  exact decode_eq_ok_iff.mpr ⟨rfl, (getElem?_between inside).trans found, embeds.done done⟩

/-- An instruction that is truncated needs fewer words by those behind the stream, as long as these
do not suffice. -/
theorem decode_between_of_truncated {needed : Nat}
    (failed : decode code offset = .error (.truncated offset needed)) (short : back.size < needed)
    (calls : Calls code offset → front = #[]) :
    decode (front ++ code ++ back) (front.size + offset) =
      .error (.truncated (front.size + offset) (needed - back.size)) := by
  obtain ⟨outside, -, lacking⟩ | ⟨opcode, found, read⟩ := truncated_cases failed
  · -- There is not even an opcode, so no reader is involved.
    have size : (front ++ code ++ back).size = front.size + code.size + back.size := by
      rw [Array.size_append, Array.size_append]
    have still : (front ++ code ++ back).size ≤ front.size + offset := by omega
    have fewer : front.size + offset + 1 - (front ++ code ++ back).size = needed - back.size := by
      omega
    rw [decode_of_size_le still, fewer]
  · have inside : offset < code.size := (Array.getElem?_eq_some_iff.mp found).1
    have embeds : (Operands.read opcode.layout).Embeds front back :=
      Operands.embeds_read _ fun called => calls (calls_of_layout found called)
    exact decode_of_operands_fault ((getElem?_between inside).trans found)
      (embeds.truncated read short)

/-- A word that stands for no opcode does not become one between other words. -/
theorem decode_between_of_illegal {word : Word}
    (failed : decode code offset = .error (.illegalOpcode word)) :
    decode (front ++ code ++ back) (front.size + offset) = .error (.illegalOpcode word) := by
  obtain ⟨found, outside⟩ := ((outcomes code offset).illegal word).mp failed
  have inside : offset < code.size := (Array.getElem?_eq_some_iff.mp found).1
  exact ((outcomes _ _).illegal word).mpr ⟨(getElem?_between inside).trans found, outside⟩

end Instruction

end Disassembler
