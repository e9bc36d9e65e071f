/-!
# Words and tables

An image is made of signed 32-bit words. A word read as an index reaches an
entry of a table only if it is not negative and below the table's size.
-/

namespace Disassembler

/-- One signed 32-bit word of an instruction stream. -/
abbrev Word := Int32

namespace Word

/-- Decimal text of a word. -/
def text (word : Word) : String := toString word.toInt

/-- A word read as a count, where a negative word counts as zero. -/
def count (word : Word) : Nat := word.toInt.toNat

/-- The word that holds an integer, if the integer fits. -/
def ofInt? (value : Int) : Option Word :=
  if Int32.minValue.toInt ≤ value ∧ value ≤ Int32.maxValue.toInt then some (Int32.ofInt value)
  else none

/-- The unsigned 32-bit pattern of a word. -/
def bits (word : Word) : Nat := word.toUInt32.toNat

/-- The unsigned 64-bit pattern of two words, the low half first. -/
def pairBits (low high : Word) : Nat := high.bits * UInt32.size + low.bits

/-- An integer that was accepted as a word is the value of that word. -/
theorem toInt_of_ofInt? {value : Int} {word : Word} (h : ofInt? value = some word) :
    word.toInt = value := by
  unfold ofInt? at h
  split at h
  · rename_i bounds
    cases h
    rw [Int32.toInt_minValue, Int32.toInt_maxValue] at bounds
    exact Int32.toInt_ofInt_of_le bounds.1 (by omega)
  · cases h

/-- An integer is accepted as a word exactly if it is the value of that word. -/
theorem ofInt?_eq_some_iff {value : Int} {word : Word} :
    ofInt? value = some word ↔ word.toInt = value := by
  constructor
  · exact toInt_of_ofInt?
  · rintro rfl
    unfold ofInt?
    rw [if_pos ⟨word.minValue_le_toInt, word.toInt_le⟩, Int32.ofInt_toInt]

/-- A count is below two to the power 31. -/
theorem count_lt (word : Word) : word.count < Int32.size / 2 := by
  have bound := word.toInt_lt
  unfold count Int32.size
  omega

end Word

/-- The entry of a table at the place that a word gives, if there is one. -/
def lookup? {α : Type} (table : Array α) (index : Word) : Option α :=
  if index.toInt < 0 then none else table[index.toInt.toNat]?

/-- A negative word names no entry. -/
theorem lookup?_eq_none_of_neg {α : Type} (table : Array α) {index : Word}
    (negative : index.toInt < 0) : lookup? table index = none := by
  simp [lookup?, negative]

/-- A word finds an entry exactly if it is not negative and the entry is at its value. -/
theorem lookup?_eq_some_iff {α : Type} {table : Array α} {index : Word} {entry : α} :
    lookup? table index = some entry ↔
      0 ≤ index.toInt ∧ table[index.toInt.toNat]? = some entry := by
  unfold lookup?
  split
  · constructor
    · intro found
      cases found
    · intro found
      omega
  · rename_i bound
    exact ⟨fun found => ⟨by omega, found⟩, fun found => found.2⟩

end Disassembler
