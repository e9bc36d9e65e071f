import Disassembler.Operands

/-!
# Laws of operand readers

Two laws say what a reader does with the stream. `OperandReader.Takes`: a reader that needs a number
of words succeeds right behind them if the stream holds them, and reports a truncated instruction
otherwise. `OperandReader.Local`: what a reader gives depends on the words that it took alone, so it
gives the same in every stream, and at every offset, that has the same words there. Both laws hold
of the single readers and pass to sequences of readers. `OperandReader.Law` is a law that does so
without a condition on the words, and `Operands.read_lawful` takes such a law to the operands of
every layout.
-/

namespace Disassembler

namespace OperandWords

variable {words : OperandWords} {read first last : Nat}

/-- The operand word after `read` others, if the stream has one. -/
def word? (words : OperandWords) (read : Nat) : Option Word := words.code[words.place read]?

/-- The stream reaches up to the place after `read` operand words. -/
def Holds (words : OperandWords) (read : Nat) : Prop := words.place read ≤ words.code.size

/-- Which words are held, by the size of the stream. -/
theorem holds_iff {code : Array Word} {offset : Nat} :
    Holds ⟨code, offset⟩ read ↔ offset + 1 + read ≤ code.size := Iff.rfl

/-- A stream that holds operand words holds those before them. -/
theorem Holds.mono (holds : words.Holds last) (order : first ≤ last) : words.Holds first := by
  unfold Holds place at *
  omega

/-- An operand word is missing exactly if the stream ends before it. -/
theorem word?_eq_none_iff : words.word? read = none ↔ ¬ words.Holds (read + 1) := by
  unfold word? Holds place
  rw [Array.getElem?_eq_none_iff]
  omega

/-- An operand word that is there is held. -/
theorem holds_of_word? {word : Word} (found : words.word? read = some word) :
    words.Holds (read + 1) := by
  have inside := (Array.getElem?_eq_some_iff.mp found).1
  exact inside

end OperandWords

namespace OperandReader

variable {α β : Type} {reader : OperandReader α} {next : α → OperandReader β}
  {words : OperandWords} {read width : Nat}

/-- A sequence of readers succeeds exactly if both succeed, one where the other ends. -/
theorem bind_eq_ok_iff {value : β} {after : Nat} :
    (reader >>= next) words read = .ok (value, after) ↔
      ∃ middle between, reader words read = .ok (middle, between) ∧
        next middle words between = .ok (value, after) := by
  rw [bind_apply]
  cases reader words read with
  | error fault => simp
  | ok result =>
    constructor
    · intro done
      exact ⟨result.1, result.2, rfl, done⟩
    · rintro ⟨middle, between, same, done⟩
      cases same
      exact done

/-- A sequence of readers whose first reader fails reports its fault. -/
theorem bind_of_error {fault : DecodeFault} (failed : reader words read = .error fault) :
    (reader >>= next) words read = .error fault := by
  rw [bind_apply, failed]

/-- A sequence of readers whose first reader succeeds goes on with the second. -/
theorem bind_of_ok {middle : α} {between : Nat} (done : reader words read = .ok (middle, between)) :
    (reader >>= next) words read = next middle words between := by
  rw [bind_apply, done]

/-- A reader reports that the instruction is truncated, by one word at least. -/
def Truncates (reader : OperandReader α) (words : OperandWords) (read : Nat) : Prop :=
  ∃ needed, 0 < needed ∧ reader words read = .error (.truncated words.offset needed)

/-- A reader takes a number of words: it succeeds behind them if the stream holds them, and reports
a truncated instruction otherwise. -/
structure Takes (reader : OperandReader α) (words : OperandWords) (read width : Nat) : Prop where
  /-- The words are there. -/
  done : words.Holds (read + width) → ∃ value, reader words read = .ok (value, read + width)
  /-- The words are not there. -/
  truncates : ¬ words.Holds (read + width) → reader.Truncates words read

/-- Reading nothing takes no words. -/
theorem takes_pure (value : α) (holds : words.Holds read) :
    (Pure.pure value : OperandReader α).Takes words read 0 :=
  ⟨fun _ => ⟨value, rfl⟩, fun missing => absurd holds missing⟩

/-- A word is read exactly if it is there. -/
theorem word_eq_ok_iff {value : Word} {after : Nat} :
    word words read = .ok (value, after) ↔ words.word? read = some value ∧ after = read + 1 := by
  unfold word OperandWords.word?
  cases words.code[words.place read]? with
  | none => simp
  | some found => simp [eq_comm]

/-- A word that is not there is missing, with all words before it. -/
theorem word_of_missing (missing : words.word? read = none) :
    word words read = .error (words.truncatedBefore (words.place read + 1)) := by
  unfold OperandWords.word? at missing
  simp only [word, missing]

/-- One word is one word. -/
theorem takes_word : word.Takes words read 1 := by
  constructor
  · intro holds
    cases found : words.word? read with
    | none => exact absurd holds (OperandWords.word?_eq_none_iff.mp found)
    | some value => exact ⟨value, word_eq_ok_iff.mpr ⟨found, rfl⟩⟩
  · intro missing
    refine ⟨_, ?_, word_of_missing (OperandWords.word?_eq_none_iff.mpr missing)⟩
    unfold OperandWords.Holds OperandWords.place at *
    omega

/-- A block is as long as it says. -/
theorem takes_skip (size : Nat) : (skip size).Takes words read size := by
  constructor
  · intro holds
    exact ⟨(), if_pos holds⟩
  · intro missing
    refine ⟨_, ?_, if_neg missing⟩
    unfold OperandWords.Holds at missing
    omega

/-- A list is as long as it says. -/
theorem takes_list (length : Nat) : (list length).Takes words read length := by
  constructor
  · intro holds
    exact ⟨_, if_pos holds⟩
  · intro missing
    exact ⟨_, by omega, if_neg missing⟩

/-- A sequence of readers is truncated if its first reader is. -/
theorem Truncates.bind (truncated : reader.Truncates words read) :
    (reader >>= next).Truncates words read := by
  obtain ⟨needed, positive, failed⟩ := truncated
  exact ⟨needed, positive, bind_of_error failed⟩

/-- In a sequence of readers the second one takes its words behind the first one's. -/
theorem Takes.bind {first second : Nat} (head : reader.Takes words read first)
    (tail : ∀ value, words.Holds (read + first) → reader words read = .ok (value, read + first) →
      (next value).Takes words (read + first) second) :
    (reader >>= next).Takes words read (first + second) := by
  have behind : read + (first + second) = read + first + second := by omega
  by_cases held : words.Holds (read + first)
  · obtain ⟨value, done⟩ := head.done held
    have rest := tail value held done
    constructor
    · intro holds
      rw [behind] at holds ⊢
      rw [bind_of_ok done]
      exact rest.done holds
    · intro missing
      rw [behind] at missing
      obtain ⟨needed, positive, failed⟩ := rest.truncates missing
      exact ⟨needed, positive, (bind_of_ok done).trans failed⟩
  · constructor
    · intro holds
      exact absurd (holds.mono (by omega)) held
    · intro _
      exact (head.truncates held).bind

/-- A sequence of readers is truncated if the first one is, or if the second one is behind it. -/
theorem Takes.bind_truncates {first : Nat} (head : reader.Takes words read first)
    (tail : ∀ value, words.Holds (read + first) → reader words read = .ok (value, read + first) →
      (next value).Truncates words (read + first)) :
    (reader >>= next).Truncates words read := by
  by_cases held : words.Holds (read + first)
  · obtain ⟨value, done⟩ := head.done held
    obtain ⟨needed, positive, failed⟩ := tail value held done
    exact ⟨needed, positive, (bind_of_ok done).trans failed⟩
  · exact (head.truncates held).bind

/-- A list is counted by the word before it. -/
theorem takes_counted {length : Word} (found : words.word? read = some length) :
    counted.Takes words read (1 + length.count) := by
  apply Takes.bind takes_word
  intro value _ done
  have same := (word_eq_ok_iff.mp done).1
  cases found.symm.trans same
  exact takes_list _

/-- A list without the word that counts it is truncated. -/
theorem truncates_counted (missing : words.word? read = none) : counted.Truncates words read :=
  (takes_word.truncates (OperandWords.word?_eq_none_iff.mp missing)).bind

/-- What a reader gives depends on the words that it takes alone. -/
structure Local (reader : OperandReader α) : Prop where
  /-- No word is given back. -/
  forward : ∀ {words read value after}, reader words read = .ok (value, after) → read ≤ after
  /-- A stream that has the same words there gives the same. -/
  transfer : ∀ {words other : OperandWords} {read value after},
    reader words read = .ok (value, after) → other.Holds after →
      (∀ place, read ≤ place → place < after → other.word? place = words.word? place) →
      reader other read = .ok (value, after)

/-- Reading nothing looks at nothing. -/
theorem local_pure (value : α) : (Pure.pure value : OperandReader α).Local where
  forward done := by
    cases done
    exact Nat.le_refl _
  transfer done _ _ := by
    cases done
    rfl

/-- One word depends on that word. -/
theorem local_word : word.Local where
  forward done := by
    obtain ⟨-, rfl⟩ := word_eq_ok_iff.mp done
    omega
  transfer done _ same := by
    obtain ⟨found, rfl⟩ := word_eq_ok_iff.mp done
    exact word_eq_ok_iff.mpr ⟨(same _ (by omega) (by omega)).trans found, rfl⟩

/-- A block is passed over exactly if the stream holds it. -/
theorem skip_eq_ok_iff {size after : Nat} {value : Unit} :
    skip size words read = .ok (value, after) ↔
      words.Holds (read + size) ∧ after = read + size := by
  unfold skip OperandWords.Holds
  split
  · rename_i holds
    simp [holds, eq_comm]
  · rename_i missing
    simp [missing]

/-- A block depends on its length alone. -/
theorem local_skip (size : Nat) : (skip size).Local where
  forward done := by
    obtain ⟨-, rfl⟩ := skip_eq_ok_iff.mp done
    omega
  transfer done holds _ := by
    obtain ⟨-, rfl⟩ := skip_eq_ok_iff.mp done
    exact skip_eq_ok_iff.mpr ⟨holds, rfl⟩

/-- The block of the stream that a list reads has its length and the operand words there. -/
theorem extract_operands {length : Nat} (holds : words.Holds (read + length)) :
    (words.code.extract (words.place read) (words.place (read + length))).toList.length = length ∧
      ∀ index < length,
        (words.code.extract (words.place read) (words.place (read + length))).toList[index]? =
          words.word? (read + index) := by
  unfold OperandWords.Holds OperandWords.word? OperandWords.place at *
  constructor
  · rw [Array.length_toList, Array.size_extract]
    omega
  · intro index inside
    rw [Array.getElem?_toList, Array.getElem?_extract, if_pos (by omega)]
    congr 1
    omega

/-- A list that is read has its length, and its entries are the operand words there. -/
theorem list_eq_ok_iff {length after : Nat} {values : List Word} :
    list length words read = .ok (values, after) ↔
      words.Holds (read + length) ∧ after = read + length ∧ values.length = length ∧
        ∀ index < length, values[index]? = words.word? (read + index) := by
  unfold list
  split
  · rename_i holds
    obtain ⟨size, entries⟩ := extract_operands holds
    constructor
    · intro done
      cases done
      exact ⟨holds, rfl, size, entries⟩
    · rintro ⟨-, rfl, length', entries'⟩
      congr 2
      apply List.ext_getElem?
      intro index
      by_cases inside : index < length
      · rw [entries index inside, entries' index inside]
      · rw [List.getElem?_eq_none (by omega), List.getElem?_eq_none (by omega)]
  · rename_i missing
    constructor
    · intro done
      cases done
    · intro result
      exact absurd result.1 missing

/-- A list depends on its words. -/
theorem local_list (length : Nat) : (list length).Local where
  forward done := by
    obtain ⟨-, rfl, -⟩ := list_eq_ok_iff.mp done
    omega
  transfer done holds same := by
    obtain ⟨-, rfl, size, entries⟩ := list_eq_ok_iff.mp done
    refine list_eq_ok_iff.mpr ⟨holds, rfl, size, ?_⟩
    intro index inside
    rw [entries index inside, same _ (by omega) (by omega)]

/-- A sequence of local readers is local. -/
theorem Local.bind (head : reader.Local) (tail : ∀ value, (next value).Local) :
    (reader >>= next).Local where
  forward done := by
    obtain ⟨middle, between, first, second⟩ := bind_eq_ok_iff.mp done
    exact Nat.le_trans (head.forward first) ((tail middle).forward second)
  transfer done holds same := by
    obtain ⟨middle, between, first, second⟩ := bind_eq_ok_iff.mp done
    have before := head.forward first
    have behind := (tail middle).forward second
    have again := head.transfer first (holds.mono behind)
      (fun place lower upper => same place lower (by omega))
    rw [bind_of_ok again]
    exact (tail middle).transfer second holds
      (fun place lower upper => same place (by omega) upper)

/-- A law of readers that holds of the single readers and passes to sequences of readers. -/
structure Law (law : ∀ α : Type, OperandReader α → Prop) : Prop where
  /-- The law holds where nothing is read. -/
  pure : ∀ {α : Type} (value : α), law α (Pure.pure value)
  /-- The law passes to sequences. -/
  bind : ∀ {α β : Type} {reader : OperandReader α} {next : α → OperandReader β},
    law α reader → (∀ value, law β (next value)) → law β (reader >>= next)
  /-- The law holds of one word. -/
  word : law Word word
  /-- The law holds of blocks. -/
  skip : ∀ size, law Unit (skip size)
  /-- The law holds of lists. -/
  list : ∀ length, law (List Word) (list length)

/-- To depend on its own words alone is a law of readers. -/
theorem local_law : Law fun _ reader => reader.Local where
  pure := local_pure
  bind := Local.bind
  word := local_word
  skip := local_skip
  list := local_list

end OperandReader

namespace Operands

open OperandReader

variable {words : OperandWords} {read : Nat}

/-- A law of readers holds of the operands of every layout, where it holds of callees if the layout
has one. -/
theorem read_lawful {law : ∀ α : Type, OperandReader α → Prop} (lawful : Law law) (layout : Layout)
    (callee : layout = .callSite ∨ layout = .multiCallSite → law _ readCallee) :
    law _ (Operands.read layout) := by
  have one {make : Word → Operands} : law _ (do return make (← word)) :=
    lawful.bind lawful.word fun _ => lawful.pure _
  have two {make : Word → Word → Operands} : law _ (do return make (← word) (← word)) :=
    lawful.bind lawful.word fun _ => lawful.bind lawful.word fun _ => lawful.pure _
  have list : law _ counted := lawful.bind lawful.word fun length => lawful.list length.count
  match layout with
  | .none => exact lawful.pure _
  | .int | .float32 | .newStruct | .native | .variable | .string => exact one
  | .int64 | .float64 | .intPair => exact two
  | .returnSite =>
    exact lawful.bind lawful.word fun _ => lawful.bind (lawful.skip 1) fun _ => lawful.pure _
  | .callSite => exact lawful.bind (callee (Or.inl rfl)) fun _ => lawful.pure _
  | .multiCallSite =>
    exact lawful.bind (callee (Or.inr rfl)) fun _ =>
      lawful.bind (lawful.skip _) fun _ => lawful.pure _
  | .newVector => exact lawful.bind (lawful.skip 1) fun _ => one
  | .functionHeader =>
    have header : law _ readFunctionHeader :=
      lawful.bind lawful.word fun _ => lawful.bind list fun _ => lawful.bind list fun _ =>
        lawful.bind lawful.word fun _ => lawful.bind list fun _ => lawful.pure _
    exact lawful.bind header fun _ => lawful.pure _
  | .coroutine =>
    exact lawful.bind lawful.word fun _ => lawful.bind (lawful.skip 1) fun _ =>
      lawful.bind list fun _ => lawful.pure _
  | .dispatchHeader =>
    exact lawful.bind lawful.word fun _ => lawful.bind lawful.word fun _ =>
      lawful.bind lawful.word fun _ => lawful.bind (lawful.skip _) fun _ => lawful.pure _

/-- A call finds its callee exactly if it has a target and there is a header there. -/
theorem readCallee_eq_ok_iff {callee : Callee} {target : Word} {after : Nat} :
    readCallee words read = .ok ((callee, target), after) ↔
      words.word? read = some target ∧ Callee.find? words.code target = some callee ∧
        after = read + 1 := by
  unfold readCallee
  constructor
  · intro done
    obtain ⟨found, between, first, done⟩ := bind_eq_ok_iff.mp done
    obtain ⟨atTarget, rfl⟩ := word_eq_ok_iff.mp first
    rw [bind_of_ok (stream_apply ..)] at done
    cases header : Callee.find? words.code found with
    | none =>
      rw [header] at done
      cases done
    | some _ =>
      rw [header] at done
      cases done
      exact ⟨atTarget, header, rfl⟩
  · rintro ⟨atTarget, header, rfl⟩
    rw [bind_of_ok (word_eq_ok_iff.mpr ⟨atTarget, rfl⟩), bind_of_ok (stream_apply ..), header]
    rfl

/-- A call without a header at its target is a bad call. -/
theorem readCallee_of_no_header {target : Word} (found : words.word? read = some target)
    (absent : Callee.find? words.code target = .none) :
    readCallee words read = .error (.badCallTarget target) := by
  unfold readCallee
  rw [bind_of_ok (word_eq_ok_iff.mpr ⟨found, rfl⟩), bind_of_ok (stream_apply ..), absent]
  rfl

/-- A call without a target is truncated. -/
theorem truncates_readCallee (missing : words.word? read = .none) :
    readCallee.Truncates words read :=
  (takes_word.truncates (OperandWords.word?_eq_none_iff.mp missing)).bind

/-- A call with a header at its target takes the word of the target. -/
theorem takes_readCallee {callee : Callee} {target : Word} (found : words.word? read = some target)
    (header : Callee.find? words.code target = some callee) : readCallee.Takes words read 1 :=
  ⟨fun _ => ⟨_, readCallee_eq_ok_iff.mpr ⟨found, header, rfl⟩⟩,
    fun missing => absurd (OperandWords.holds_of_word? found) missing⟩

end Operands

end Disassembler
