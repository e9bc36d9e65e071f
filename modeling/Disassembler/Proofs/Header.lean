import Disassembler.Operands.Callee

/-!
# Function headers

A call finds its callee through a word that holds the offset of a function header. What counts as a
header is stated here by places of the stream alone: one of two opcodes, at an offset that is not
negative, with a number of arguments behind it that is still in the stream. `Callee.find?` finds a
callee exactly where there is such a header.
-/

namespace Disassembler

namespace Opcode

/-- The opcode of a call. -/
def call : Opcode := ⟨36, by rw [size_rows]; decide⟩

/-- The opcode of a call that is followed by the types of its arguments. -/
def multiCall : Opcode := ⟨37, by rw [size_rows]; decide⟩

/-- The opcode at which a function starts. -/
def functionStart : Opcode := ⟨40, by rw [size_rows]; decide⟩

/-- The opcode at which a function with several cases starts. -/
def dispatchStart : Opcode := ⟨41, by rw [size_rows]; decide⟩

/-- The opcode of a return. -/
def functionReturn : Opcode := ⟨42, by rw [size_rows]; decide⟩

/-- The names under which the opcodes of calls and headers are listed. -/
theorem mnemonic_named :
    call.mnemonic = "CALL" ∧ multiCall.mnemonic = "CALLMULTI" ∧
      functionStart.mnemonic = "FUNSTART" ∧ dispatchStart.mnemonic = "FUNMULTI" := by
  decide +kernel

/-- Each of the layouts of calls and headers has one row in the table. -/
theorem rows_named : ∀ entry ∈ rows.toList.zipIdx,
    (entry.1.layout = .callSite ↔ entry.2 = 36) ∧
      (entry.1.layout = .multiCallSite ↔ entry.2 = 37) ∧
      (entry.1.layout = .functionHeader ↔ entry.2 = 40) ∧
      (entry.1.layout = .dispatchHeader ↔ entry.2 = 41) := by
  decide +kernel

/-- Each of the layouts of calls and headers belongs to one opcode only. -/
theorem layout_named (opcode : Opcode) :
    (opcode.layout = .callSite ↔ opcode = call) ∧
      (opcode.layout = .multiCallSite ↔ opcode = multiCall) ∧
      (opcode.layout = .functionHeader ↔ opcode = functionStart) ∧
      (opcode.layout = .dispatchHeader ↔ opcode = dispatchStart) := by
  have listed : (opcode.row, opcode.val) ∈ rows.toList.zipIdx := by
    rw [List.mk_mem_zipIdx_iff_getElem?]
    simp [row]
  simp only [Fin.ext_iff]
  exact rows_named _ listed

/-- A word stands for an opcode exactly if it is the word of that opcode. -/
theorem ofWord?_eq_some_iff {word : Word} {opcode : Opcode} :
    ofWord? word = some opcode ↔ word = opcode.word := by
  constructor
  · intro found
    exact (word_of_ofWord? found).symm
  · rintro rfl
    exact ofWord?_word opcode

/-- A word stands for no opcode exactly if it is negative or not below the number of opcodes. -/
theorem ofWord?_eq_none_iff {word : Word} :
    ofWord? word = none ↔ ¬ (0 ≤ word.toInt ∧ word.toInt < count) := by
  have size : (count : Int) = 218 := congrArg Nat.cast size_rows
  rw [size, ← isSome_ofWord?_iff, Option.not_isSome_iff_eq_none]

/-- Different opcodes have different words. -/
theorem word_inj {first second : Opcode} : first.word = second.word ↔ first = second := by
  constructor
  · intro same
    exact Option.some.inj ((ofWord?_word first).symm.trans (same ▸ ofWord?_word second))
  · exact congrArg word

end Opcode

namespace Callee

/-- There is a header at the offset that a word holds, and it keeps its number of arguments `slot`
words after its opcode. -/
structure HeaderAt (code : Array Word) (target : Word) (slot : Nat) : Prop where
  /-- The offset is not negative. -/
  nonnegative : 0 ≤ target.toInt
  /-- The opcode at the offset starts a function, and says where the number of arguments is. -/
  kind : code[target.toInt.toNat]? = some Opcode.functionStart.word ∧ slot = 2 ∨
    code[target.toInt.toNat]? = some Opcode.dispatchStart.word ∧ slot = 3
  /-- The number of arguments is in the stream. -/
  inside : target.toInt.toNat + slot < code.size
  /-- The offset of the number of arguments is a word. -/
  fits : target.toInt + slot ≤ Int32.maxValue.toInt

/-- The layouts of the two opcodes at which functions start are the ones with a place for the number
of arguments. -/
theorem argumentsPlace?_eq_some_iff {opcode : Opcode} {slot : Nat} :
    argumentsPlace? opcode.layout = some slot ↔
      opcode = Opcode.functionStart ∧ slot = 2 ∨ opcode = Opcode.dispatchStart ∧ slot = 3 := by
  obtain ⟨-, -, start, dispatch⟩ := Opcode.layout_named opcode
  rw [← start, ← dispatch]
  cases opcode.layout <;> simp [argumentsPlace?, eq_comm]

/-- The word some places after a target is the word of the stream there, if that place is not
negative and still is a word. -/
theorem wordAfter?_eq_some_iff {code : Array Word} {target word : Word} {distance : Nat} :
    wordAfter? code target distance = some word ↔
      0 ≤ target.toInt + distance ∧ target.toInt + distance ≤ Int32.maxValue.toInt ∧
        code[(target.toInt + distance).toNat]? = some word := by
  unfold wordAfter?
  rw [Option.bind_eq_some_iff]
  constructor
  · rintro ⟨index, fits, found⟩
    obtain ⟨nonnegative, found⟩ := lookup?_eq_some_iff.mp found
    rw [Word.ofInt?_eq_some_iff] at fits
    rw [← fits]
    exact ⟨nonnegative, index.toInt_le, found⟩
  · rintro ⟨nonnegative, fits, found⟩
    have value : (Int32.ofInt (target.toInt + distance)).toInt = target.toInt + distance := by
      rw [Int32.toInt_maxValue] at fits
      exact Int32.toInt_ofInt_of_le (by omega) (by omega)
    refine ⟨Int32.ofInt (target.toInt + distance), Word.ofInt?_eq_some_iff.mpr value, ?_⟩
    rw [lookup?_eq_some_iff, value]
    exact ⟨nonnegative, found⟩

/-- A callee is found exactly where there is a header, and it is what the header holds. -/
theorem find?_eq_some_iff {code : Array Word} {target : Word} {callee : Callee} :
    find? code target = some callee ↔
      ∃ slot, HeaderAt code target slot ∧
        code[target.toInt.toNat + 1]? = some callee.function ∧
        code[target.toInt.toNat + slot]? = some callee.arguments := by
  unfold find?
  simp only [Option.bind_eq_bind, Option.bind_eq_some_iff, Opcode.ofWord?_eq_some_iff,
    argumentsPlace?_eq_some_iff, wordAfter?_eq_some_iff]
  constructor
  · rintro ⟨_, ⟨nonnegative, -, atTarget⟩, opcode, rfl, slot, kind, function, ⟨-, -, atNext⟩,
      arguments, ⟨-, fits, atSlot⟩, made⟩
    cases made
    have next : (target.toInt + (1 : Nat)).toNat = target.toInt.toNat + 1 := by omega
    have place : (target.toInt + slot).toNat = target.toInt.toNat + slot := by omega
    rw [next] at atNext
    rw [place] at atSlot
    rw [Int.natCast_zero, Int.add_zero] at nonnegative atTarget
    have inside := (Array.getElem?_eq_some_iff.mp atSlot).1
    refine ⟨slot, ⟨nonnegative, ?_, inside, fits⟩, atNext, atSlot⟩
    obtain ⟨rfl, rfl⟩ | ⟨rfl, rfl⟩ := kind
    · exact Or.inl ⟨atTarget, rfl⟩
    · exact Or.inr ⟨atTarget, rfl⟩
  · rintro ⟨slot, ⟨nonnegative, kind, inside, fits⟩, atNext, atSlot⟩
    have next : (target.toInt + (1 : Nat)).toNat = target.toInt.toNat + 1 := by omega
    have place : (target.toInt + slot).toNat = target.toInt.toNat + slot := by omega
    have behind : 2 ≤ slot := by omega
    obtain ⟨opcode, atTarget, kind⟩ : ∃ opcode : Opcode,
        code[target.toInt.toNat]? = some opcode.word ∧
          (opcode = Opcode.functionStart ∧ slot = 2 ∨
            opcode = Opcode.dispatchStart ∧ slot = 3) := by
      obtain ⟨atTarget, slot⟩ | ⟨atTarget, slot⟩ := kind
      · exact ⟨_, atTarget, Or.inl ⟨rfl, slot⟩⟩
      · exact ⟨_, atTarget, Or.inr ⟨rfl, slot⟩⟩
    rw [Int.natCast_zero, Int.add_zero]
    exact ⟨_, ⟨nonnegative, by omega, atTarget⟩, opcode, rfl, slot, kind, callee.function,
      ⟨by omega, by omega, next ▸ atNext⟩, callee.arguments, ⟨by omega, fits, place ▸ atSlot⟩, rfl⟩

/-- No callee is found exactly where there is no header. -/
theorem find?_eq_none_iff {code : Array Word} {target : Word} :
    find? code target = none ↔ ¬ ∃ slot, HeaderAt code target slot := by
  constructor
  · rintro missing ⟨slot, header⟩
    have behind : 2 ≤ slot := by have := header.kind; omega
    have inside := header.inside
    have found : find? code target =
        some ⟨code[target.toInt.toNat + 1], code[target.toInt.toNat + slot]⟩ :=
      find?_eq_some_iff.mpr ⟨slot, header, Array.getElem?_eq_getElem _,
        Array.getElem?_eq_getElem _⟩
    rw [missing] at found
    cases found
  · intro absent
    rw [Option.eq_none_iff_forall_ne_some]
    intro callee found
    obtain ⟨slot, header, -⟩ := find?_eq_some_iff.mp found
    exact absent ⟨slot, header⟩

/-- The opcode of a header decides where it keeps its number of arguments. -/
theorem HeaderAt.slot_unique {code : Array Word} {target : Word} {first second : Nat}
    (one : HeaderAt code target first) (other : HeaderAt code target second) : first = second := by
  have different : Opcode.functionStart.word ≠ Opcode.dispatchStart.word := by
    rw [Ne, Opcode.word_inj]
    decide
  obtain ⟨atTarget, rfl⟩ | ⟨atTarget, rfl⟩ := one.kind <;>
    obtain ⟨again, rfl⟩ | ⟨again, rfl⟩ := other.kind
  · rfl
  · exact absurd (Option.some.inj (atTarget.symm.trans again)) different
  · exact absurd (Option.some.inj (again.symm.trans atTarget)) different
  · rfl

/-- The places of the stream that a call reads in the header of its callee: the opcode, the function
and the number of arguments. -/
def headerPlaces (target : Word) (slot : Nat) : List Nat :=
  [target.toInt.toNat, target.toInt.toNat + 1, target.toInt.toNat + slot]

/-- A header is in the stream. -/
theorem HeaderAt.place_lt {code : Array Word} {target : Word} {slot place : Nat}
    (header : HeaderAt code target slot) (among : place ∈ headerPlaces target slot) :
    place < code.size := by
  have inside := header.inside
  have behind : 2 ≤ slot := by have := header.kind; omega
  simp only [headerPlaces, List.mem_cons, List.not_mem_nil, or_false] at among
  omega

/-- A callee is found again in every stream that has the same words where its header was read. -/
theorem find?_of_same_header {code other : Array Word} {target : Word} {callee : Callee}
    {slot : Nat} (found : find? code target = some callee) (header : HeaderAt code target slot)
    (same : ∀ place ∈ headerPlaces target slot, other[place]? = code[place]?) :
    find? other target = some callee := by
  obtain ⟨slot', header', function, arguments⟩ := find?_eq_some_iff.mp found
  obtain rfl := header.slot_unique header'
  have sameTarget := same target.toInt.toNat (by simp [headerPlaces])
  have sameNext := same (target.toInt.toNat + 1) (by simp [headerPlaces])
  have sameSlot := same (target.toInt.toNat + slot) (by simp [headerPlaces])
  rw [← sameSlot] at arguments
  have inside := (Array.getElem?_eq_some_iff.mp arguments).1
  have moved : HeaderAt other target slot :=
    ⟨header.nonnegative, sameTarget ▸ header.kind, inside, header.fits⟩
  exact find?_eq_some_iff.mpr ⟨slot, moved, sameNext ▸ function, arguments⟩

/-- A callee is found again in a stream that has grown. -/
theorem find?_append {code : Array Word} {target : Word} {callee : Callee}
    (found : find? code target = some callee) (tail : Array Word) :
    find? (code ++ tail) target = some callee := by
  obtain ⟨slot, header, -⟩ := find?_eq_some_iff.mp found
  apply find?_of_same_header found header
  intro place among
  exact Array.getElem?_append_left (header.place_lt among)

end Callee

end Disassembler
