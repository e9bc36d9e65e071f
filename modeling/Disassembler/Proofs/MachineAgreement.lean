import Disassembler.Proofs.Decoding
import Disassembler.Proofs.Machine

/-!
# The machine decodes what the stream holds

On a stream that fits into memory, each operation of `Machine.decode` on cursors has an exact
result, whatever the words of the stream are. The machine gives the instruction that
`Instruction.decode` gives, with the text of its operands, or the same fault. Looking up names while
reading, instead of afterwards, changes nothing.
-/

namespace Disassembler

namespace Machine

/-- A stream that fits into memory: its words take fewer octets than half of the 64-bit numbers can
count. -/
def Addressable (code : Array Word) : Prop := 4 * code.size < UInt64.size / 2

/-- A place of a stream in memory has a cursor, and so has the place behind it. -/
theorem Addressable.cursor_lt {code : Array Word} (addressable : Addressable code) {place : Nat}
    (inside : place ≤ code.size) : place + 1 < UInt64.size := by
  unfold Addressable UInt64.size at *
  omega

/-- A place of a stream in memory, and a block behind it that is far larger than the stream can be,
still have cursors. -/
theorem Addressable.block_lt {code : Array Word} (addressable : Addressable code) {place size : Nat}
    (inside : place ≤ code.size) (bound : size < UInt64.size / 2) : place + size < UInt64.size := by
  unfold Addressable UInt64.size at *
  omega

/-- A counted block is far smaller than the cursors reach. -/
theorem count_lt_half (word : Word) : word.count < UInt64.size / 2 :=
  Nat.lt_trans word.count_lt (by decide)

/-- An operation whose exact result is a 64-bit number gives it. -/
theorem fit?_of_bounds {value : Int} {number : Nat} (same : value = number)
    (fits : number < UInt64.size) : fit? value = some number := by
  unfold fit?
  rw [if_pos (by omega)]
  congr 1
  omega

/-- A sum that fits is exact. -/
theorem add?_of_lt {first second : Nat} (fits : first + second < UInt64.size) :
    add? first second = some (first + second) := fit?_of_bounds (by omega) fits

/-- A difference that is not negative is exact. -/
theorem sub?_of_le {first second : Nat} (order : second ≤ first) (fits : first < UInt64.size) :
    sub? first second = some (first - second) := fit?_of_bounds (by omega) (by omega)

/-- A product that fits is exact. -/
theorem mul?_of_lt {first second : Nat} (fits : first * second < UInt64.size) :
    mul? first second = some (first * second) := fit?_of_bounds (by simp) fits

namespace CursorReader

variable {α β γ δ : Type} {code : Array Word} {machine : CursorReader β} {make : α → β}
  {reader : OperandReader α}

/-- A sequence whose first reader succeeds goes on with the second. -/
theorem bind_of_ok {next : β → CursorReader δ} {words : OperandWords} {cursor after : Nat}
    {value : β} (done : machine words cursor = some (.ok (value, after))) :
    (machine >>= next) words cursor = next value words after := by
  rw [bind_apply, done]

/-- A sequence whose first reader fails reports its fault. -/
theorem bind_of_error {next : β → CursorReader δ} {words : OperandWords} {cursor : Nat}
    {fault : DecodeFault} (failed : machine words cursor = some (.error fault)) :
    (machine >>= next) words cursor = some (.error fault) := by
  rw [bind_apply, failed]

/-- An operation that has an exact result gives it. -/
theorem result_of_some {value? : Option β} {words : OperandWords} {cursor : Nat} {value : β}
    (exact : value? = some value) : result value? words cursor = some (.ok (value, cursor)) := by
  unfold result
  rw [exact]
  rfl

/-- A machine renders what a reader reads: started at the same word of an instruction, it gives the
same fault, or what it makes of the same value, with its cursor at the next word. -/
structure Renders (code : Array Word) (machine : CursorReader β) (make : α → β)
    (reader : OperandReader α) : Prop where
  /-- The machine agrees with the reader, and has an exact result. -/
  agrees : ∀ {offset read}, OperandWords.Holds ⟨code, offset⟩ read →
    machine ⟨code, offset⟩ (offset + 1 + read) =
      some ((reader ⟨code, offset⟩ read).map fun (value, after) => (make value, offset + 1 + after))
  /-- The reader does not leave the stream. -/
  holds : ∀ {offset read value after}, OperandWords.Holds ⟨code, offset⟩ read →
    reader ⟨code, offset⟩ read = .ok (value, after) → OperandWords.Holds ⟨code, offset⟩ after

/-- Reading nothing gives a text that was known. -/
theorem renders_pure {text : β} {value : α} (same : text = make value) :
    Renders code (Pure.pure text) make (Pure.pure value) where
  agrees _ := by
    rw [same]
    rfl
  holds held done := by
    cases done
    exact held

/-- Sequences of readers are rendered if both parts are. -/
theorem Renders.bind {following : β → CursorReader δ} {next : α → OperandReader γ} {make' : γ → δ}
    (head : Renders code machine make reader)
    (tail : ∀ value, Renders code (following (make value)) make' (next value)) :
    Renders code (machine >>= following) make' (reader >>= next) where
  agrees {offset read} held := by
    rw [bind_apply, head.agrees held, OperandReader.bind_apply]
    cases done : reader ⟨code, offset⟩ read with
    | error fault => rfl
    | ok result => exact (tail result.1).agrees (head.holds held done)
  holds held done := by
    obtain ⟨middle, between, first, second⟩ := OperandReader.bind_eq_ok_iff.mp done
    exact (tail middle).holds (head.holds held first) second

/-- What is made of a value afterwards can be made at once. -/
theorem Renders.of_made {make' : γ → β} {after : α → γ}
    (rendered : Renders code machine (fun value => make' (after value)) reader) :
    Renders code machine make' (do return after (← reader)) where
  agrees {offset read} held := by
    rw [rendered.agrees held, OperandReader.bind_apply]
    cases reader ⟨code, offset⟩ read with
    | error fault => rfl
    | ok result => rfl
  holds held done := by
    obtain ⟨middle, between, first, second⟩ := OperandReader.bind_eq_ok_iff.mp done
    cases second
    exact rendered.holds held first

/-- Readers that agree on the stream are rendered alike. -/
theorem Renders.congr {other : OperandReader α} (rendered : Renders code machine make other)
    (same : ∀ {offset read}, OperandWords.Holds ⟨code, offset⟩ read →
      reader ⟨code, offset⟩ read = other ⟨code, offset⟩ read) :
    Renders code machine make reader where
  agrees held := by
    rw [same held]
    exact rendered.agrees held
  holds held done := rendered.holds held (same held ▸ done)

/-- An operation that has an exact result is passed over. -/
theorem Renders.of_result {following : γ → CursorReader β} {value : γ} {value? : Option γ}
    (exact : value? = some value) (rendered : Renders code (following value) make reader) :
    Renders code (result value? >>= following) make reader where
  agrees held := by
    rw [bind_of_ok (result_of_some exact)]
    exact rendered.agrees held
  holds := rendered.holds

/-- A failure is the same failure. -/
theorem renders_fail (fault : DecodeFault) :
    Renders code (fail fault) make (OperandReader.fail fault) where
  agrees _ := rfl
  holds _ done := by cases done

/-- Looking at the stream is the same look. -/
theorem renders_stream : Renders code stream id OperandReader.stream where
  agrees _ := rfl
  holds held done := by
    cases done
    exact held

/-- A word in the stream is read. -/
theorem word_of_found {words : OperandWords} {cursor : Nat} {value : Word}
    (fits : cursor + 1 < UInt64.size) (found : words.code[cursor]? = some value) :
    word words cursor = some (.ok (value, cursor + 1)) := by
  unfold word
  rw [add?_of_lt fits, Option.bind_some, found]

/-- A word behind the stream is missing, with all words before it. -/
theorem word_of_missing {words : OperandWords} {cursor : Nat}
    (fits : cursor + 1 < UInt64.size) (missing : words.code[cursor]? = none) :
    word words cursor = some (.error (words.truncatedBefore (cursor + 1))) := by
  have outside := Array.getElem?_eq_none_iff.mp missing
  unfold word truncatedBefore
  rw [add?_of_lt fits, Option.bind_some, missing]
  dsimp only
  rw [sub?_of_le (by omega) fits]
  rfl

/-- One word is read as one word. -/
theorem renders_word (addressable : Addressable code) :
    Renders code word id OperandReader.word where
  agrees {offset read} held := by
    rw [OperandWords.holds_iff] at held
    have fits := addressable.cursor_lt held
    unfold OperandReader.word OperandWords.place
    dsimp only
    cases found : code[offset + 1 + read]? with
    | some value => exact word_of_found fits found
    | none => exact word_of_missing fits found
  holds held done := by
    obtain ⟨found, rfl⟩ := OperandReader.word_eq_ok_iff.mp done
    exact OperandWords.holds_of_word? found

/-- A block is passed over as a block, up to far more words than a header can count. -/
theorem renders_skip (addressable : Addressable code) {size : Nat}
    (bound : size < UInt64.size / 2) :
    Renders code (skip size) id (OperandReader.skip size) where
  agrees {offset read} held := by
    rw [OperandWords.holds_iff] at held
    have after := addressable.block_lt held bound
    unfold skip OperandReader.skip OperandWords.place truncatedBefore
    dsimp only
    rw [add?_of_lt after, Option.bind_some, ← Nat.add_assoc]
    by_cases fits : offset + 1 + read + size ≤ code.size
    · rw [if_neg (by omega), if_pos fits, Nat.add_assoc]
      rfl
    · rw [if_pos (by omega), if_neg fits, sub?_of_le (by omega) after]
      rfl
  holds held done := by
    obtain ⟨fits, rfl⟩ := OperandReader.skip_eq_ok_iff.mp done
    exact fits

/-- A list is read word by word. -/
theorem list_succ {words : OperandWords} {read : Nat} (held : words.Holds read) (length : Nat) :
    OperandReader.list (length + 1) words read =
      (do return (← OperandReader.word) :: (← OperandReader.list length)) words read := by
  cases found : words.word? read with
  | none =>
    have missing := OperandWords.word?_eq_none_iff.mp found
    have last : words.place read = words.code.size := by
      unfold OperandWords.Holds OperandWords.place at *
      omega
    have failed : OperandReader.word words read =
        .error (words.truncatedBefore (words.code.size + 1)) := by
      rw [← last]
      exact OperandReader.word_of_missing found
    rw [OperandReader.bind_of_error failed]
    exact if_neg fun holds => missing (OperandWords.Holds.mono holds (by omega))
  | some value =>
    have behind : read + (length + 1) = read + 1 + length := by omega
    rw [OperandReader.bind_of_ok (OperandReader.word_eq_ok_iff.mpr ⟨found, rfl⟩)]
    cases rest : OperandReader.list length words (read + 1) with
    | error fault =>
      rw [OperandReader.bind_of_error rest]
      unfold OperandReader.list at rest
      split at rest
      · cases rest
      · rename_i missing
        cases rest
        exact if_neg fun holds => missing (behind ▸ holds)
    | ok result =>
      obtain ⟨values, after⟩ := result
      obtain ⟨holds, rfl, size, entries⟩ := OperandReader.list_eq_ok_iff.mp rest
      rw [OperandReader.bind_of_ok rest]
      refine OperandReader.list_eq_ok_iff.mpr ⟨behind ▸ holds, behind.symm, by simp [size], ?_⟩
      intro index inside
      cases index with
      | zero => exact found.symm
      | succ index =>
        rw [List.getElem?_cons_succ, entries index (by omega)]
        congr 1
        omega

/-- Words whose texts are added one by one are read as a list. -/
theorem renders_texts (addressable : Addressable code) (text : Word → String) (length : Nat)
    (sofar : String) :
    Renders code (texts text length sofar) (fun values => sofar ++ String.join (values.map text))
      (OperandReader.list length) := by
  induction length generalizing sofar with
  | zero =>
    have nothing : Renders code (Pure.pure sofar)
        (fun values => sofar ++ String.join (values.map text)) (Pure.pure ([] : List Word)) :=
      renders_pure (by simp)
    apply nothing.congr
    intro offset read held
    exact OperandReader.list_eq_ok_iff.mpr ⟨held, rfl, rfl, nofun⟩
  | succ length rest =>
    refine Renders.congr (Renders.bind (renders_word addressable) fun value => ?_)
      fun held => list_succ held length
    apply Renders.of_made
    simpa only [List.map_cons, String.join_cons, String.append_assoc, id] using
      rest (sofar ++ text value)

/-- The callee of a call is read as such. -/
theorem renders_callee (addressable : Addressable code) :
    Renders code callee id Operands.readCallee := by
  apply Renders.bind (renders_word addressable)
  intro target
  apply Renders.bind renders_stream
  intro stream
  dsimp only [id]
  cases Callee.find? stream target with
  | none => exact renders_fail _
  | some callee => exact renders_pure rfl

/-- A counted list is read, and its words are written, before what follows it. -/
theorem Renders.counted (addressable : Addressable code) {text : Word → String} {sofar : String}
    {following : String → CursorReader δ} {next : List Word → OperandReader γ} {make' : γ → δ}
    (tail : ∀ values, Renders code (following (sofar ++ String.join (values.map text))) make'
      (next values)) :
    Renders code (do following (← texts text (← word).count sofar)) make'
      (OperandReader.counted >>= next) := by
  have sequence : Renders code (do following (← texts text (← word).count sofar)) make'
      (do next (← OperandReader.list (← OperandReader.word).count)) :=
    (renders_word addressable).bind fun length =>
      (renders_texts addressable text length.count sofar).bind tail
  apply sequence.congr
  intro offset read _
  unfold OperandReader.counted
  simp only [OperandReader.bind_apply]
  cases OperandReader.word ⟨code, offset⟩ read <;> rfl

/-- A function header is written as its list entries are read. -/
theorem renders_header (addressable : Addressable code) (tables : NameTables) :
    Renders code (header tables) tables.showHeader Operands.readFunctionHeader := by
  apply (renders_word addressable).bind
  intro function
  apply Renders.counted addressable
  intro parameters
  apply Renders.counted addressable
  intro results
  apply (renders_word addressable).bind
  intro keep
  apply Renders.counted addressable
  intro owned
  apply renders_pure
  simp only [NameTables.showHeader, NameTables.showVariables, String.append_assoc, id]

/-- The table behind a header with several cases is small enough for exact products. -/
theorem dispatch_bound (cases arguments : Word) :
    (arguments.count + 1) * cases.count < UInt64.size / 2 := by
  have bound : (arguments.count + 1) * cases.count ≤ Int32.size / 2 * (Int32.size / 2) :=
    Nat.mul_le_mul arguments.count_lt (Nat.le_of_lt cases.count_lt)
  exact Nat.lt_of_le_of_lt bound (by decide)

/-- The operands of each layout are written as they are read. -/
theorem renders_operands (addressable : Addressable code) (tables : NameTables) (natives : Natives)
    (layout : Layout) :
    Renders code (operands tables natives layout) (Operands.text tables natives)
      (Operands.read layout) := by
  have one {text : Word → String} {make : Word → Operands}
      (same : ∀ value, text value = (make value).text tables natives) :
      Renders code (do return text (← word)) (Operands.text tables natives)
        (do return make (← OperandReader.word)) :=
    (renders_word addressable).bind fun value => renders_pure (same value)
  have two {text : Word → Word → String} {make : Word → Word → Operands}
      (same : ∀ first second, text first second = (make first second).text tables natives) :
      Renders code (do return text (← word) (← word)) (Operands.text tables natives)
        (do return make (← OperandReader.word) (← OperandReader.word)) :=
    (renders_word addressable).bind fun first =>
      (renders_word addressable).bind fun second => renders_pure (same first second)
  have skipped : Renders code (skip 1) id (OperandReader.skip 1) :=
    renders_skip addressable (by decide)
  match layout with
  | .none => exact renders_pure rfl
  | .int | .float32 | .newStruct | .native | .variable | .string => exact one fun _ => rfl
  | .int64 | .float64 | .intPair => exact two fun _ _ => rfl
  | .returnSite =>
    apply (renders_word addressable).bind
    intro function
    exact skipped.bind fun _ => renders_pure rfl
  | .callSite =>
    apply (renders_callee addressable).bind
    rintro ⟨callee, target⟩
    exact renders_pure rfl
  | .multiCallSite =>
    apply (renders_callee addressable).bind
    rintro ⟨callee, target⟩
    exact (renders_skip addressable (count_lt_half _)).bind fun _ => renders_pure rfl
  | .newVector => exact skipped.bind fun _ => one fun _ => rfl
  | .functionHeader => exact Renders.of_made (renders_header addressable tables)
  | .coroutine =>
    apply (renders_word addressable).bind
    intro number
    apply skipped.bind
    intro _
    apply Renders.of_made
    exact (renders_word addressable).bind fun slots => renders_texts addressable _ _ _
  | .dispatchHeader =>
    apply (renders_word addressable).bind
    intro function
    apply (renders_word addressable).bind
    intro cases
    apply (renders_word addressable).bind
    intro arguments
    have columns := count_lt_half arguments
    have size := dispatch_bound cases arguments
    apply Renders.of_result (add?_of_lt (by simp only [id]; omega))
    apply Renders.of_result (mul?_of_lt (by simp only [id]; omega))
    exact (renders_skip addressable size).bind fun _ => renders_pure rfl

end CursorReader

/-- The block of the opcode table that a word reaches gives the opcode that the word stands for. -/
theorem opcode?_eq (word : Word) : opcode? word = some (Opcode.ofWord? word) := by
  have table := Opcode.size_rows
  have base : Opcode.baseRows.size = 116 := rfl
  have places : Opcode.placeOperations.size = 34 := rfl
  have cursors : UInt64.size = 18446744073709551616 := rfl
  have bound := word.toInt_lt
  unfold opcode? Opcode.ofWord?
  by_cases negative : word.toInt < 0
  · rw [if_pos negative, dif_neg (by omega)]
  rw [if_neg negative]
  by_cases first : word.toInt.toNat < Opcode.baseRows.size
  · rw [dif_pos first, dif_pos ⟨by omega, by omega⟩]
  rw [dif_neg first, sub?_of_le (by omega) (by omega), Option.map_some]
  congr 1
  unfold placeOpcode?
  have number : Opcode.baseRows.size +
      (word.toInt.toNat - Opcode.baseRows.size) / Opcode.placeOperations.size *
        Opcode.placeOperations.size +
      (word.toInt.toNat - Opcode.baseRows.size) % Opcode.placeOperations.size =
        word.toInt.toNat := by
    rw [Nat.add_assoc, Nat.div_add_mod']
    omega
  simp only [number]
  by_cases inside : word.toInt.toNat < Opcode.rows.size
  · have kind :
        (word.toInt.toNat - Opcode.baseRows.size) / Opcode.placeOperations.size < 3 := by
      rw [base, places]
      omega
    rw [dif_pos ⟨kind, inside⟩, dif_pos ⟨by omega, inside⟩]
  · rw [dif_neg (fun bounds => inside bounds.2), dif_neg (fun bounds => inside bounds.2)]

/-- The machine gives what decoding and then rendering gives, at every cursor for which the next
one exists. -/
theorem decode_eq (image : Image) (natives : Natives) {offset : Nat}
    (cursor : offset + 1 < UInt64.size) (addressable : Addressable image.code) :
    decode image natives offset =
      some ((Instruction.decode image.code offset).map
        (·.rendered image.toNameTables natives)) := by
  unfold decode
  cases found : image.code[offset]? with
  | none =>
    have outside := Array.getElem?_eq_none_iff.mp found
    rw [Instruction.decode_of_size_le outside, instruction,
      CursorReader.bind_of_error (CursorReader.word_of_missing cursor found)]
    rfl
  | some first =>
    rw [instruction, CursorReader.bind_of_ok (CursorReader.word_of_found cursor found),
      CursorReader.bind_of_ok (CursorReader.result_of_some (opcode?_eq first))]
    cases known : Opcode.ofWord? first with
    | none =>
      rw [Instruction.decode_of_illegal found known]
      rfl
    | some opcode =>
      have inside : OperandWords.Holds ⟨image.code, offset⟩ 0 :=
        (Array.getElem?_eq_some_iff.mp found).1
      have text := (CursorReader.renders_operands addressable image.toNameTables natives
        opcode.layout).agrees inside
      rw [← Opcode.word_of_ofWord? known] at found
      cases read : Operands.read opcode.layout ⟨image.code, offset⟩ 0 with
      | error fault =>
        rw [read] at text
        rw [Instruction.decode_of_operands_fault found read]
        dsimp only
        rw [CursorReader.bind_of_error text]
        rfl
      | ok result =>
        obtain ⟨operands, behind⟩ := result
        rw [read] at text
        have decoded : Instruction.decode image.code offset =
            .ok ⟨offset, opcode, operands, behind⟩ :=
          Instruction.decode_eq_ok_iff.mpr ⟨rfl, found, read⟩
        rw [decoded]
        dsimp only
        rw [CursorReader.bind_of_ok text]
        simp only [Instruction.rendered, Instruction.next, Instruction.width, Nat.add_assoc]
        rfl

end Machine

end Disassembler
