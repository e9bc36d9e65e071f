import Disassembler.Image.Document
import Disassembler.Load.Scalar
import Disassembler.Proofs.Json.Documents

/-!
# Loading printed words, strings and tables

A whole number is printed with as many digits as it needs, and its digits stand for it. As no word
needs more digits than 64 bits hold, a printed word is loaded as itself.
-/

namespace Disassembler.Json.Numeral

/-- All digits of a number below two to the power 64 are leading ones. -/
theorem foldr_digits {value : Nat} (small : value < UInt64.size) :
    (digits value).foldr (Leading.digit true) ⟨0, 0, false⟩ = ⟨value, 0, false⟩ := by
  fun_induction digits value with
  | case1 value single =>
    rw [List.foldr_cons, List.foldr_nil, Leading.digit]
    simp only [Nat.mul_zero, Nat.zero_add, Bool.false_or, decide_eq_true_eq]
    rw [if_neg (by omega)]
    rfl
  | case2 value several ih =>
    have extended : 10 * (value / 10) + value % 10 = value := by omega
    rw [List.foldr_cons, ih (by omega), Leading.digit]
    simp only [extended, Bool.false_or, decide_eq_true_eq]
    rw [if_neg (by omega)]
    rfl

/-- A number of at most 53 bits is not rounded. -/
theorem roundBinary64_of_lt {value : Nat} (small : value < UInt32.size) :
    roundBinary64 value = value := by
  have exact : Nat.pow 2 (value.log2 + 1 - 53) = 1 := by
    have bits : value.log2 < 53 := by
      rcases Nat.eq_zero_or_pos value with rfl | positive
      · decide
      · exact (Nat.log2_lt (by omega)).mpr (by unfold UInt32.size at small; omega)
    rw [show value.log2 + 1 - 53 = 0 by omega]
  unfold roundBinary64
  simp only [exact, Nat.div_one, Nat.mod_one, Nat.mul_one]
  rw [if_pos (Or.inl (by decide))]

variable {value : Int} (small : value.natAbs < UInt32.size)
include small

/-- A whole number of 32 bits is not out of range. -/
theorem isOutOfRange_ofInt : (ofInt value).isOutOfRange = false := by
  have leading : (ofInt value).leading = ⟨value.natAbs, 0, false⟩ := by
    show { (digits value.natAbs).foldr (Leading.digit true) ⟨0, 0, false⟩ with full := false } = _
    rw [foldr_digits (by unfold UInt32.size at small; unfold UInt64.size; omega)]
  have unscaled : (ofInt value).exponentValue = 0 := rfl
  have single : roundBinary64 (Nat.pow 10 (0 : Int).toNat) = 1 :=
    roundBinary64_of_lt (by decide : 1 < UInt32.size)
  -- The exponent is a variable here because its power of two is too large to be computed.
  have inside (exponent : Nat) :
      decide ((Nat.pow 2 54 - 1) * Nat.pow 2 exponent ≤ value.natAbs) = false := by
    apply decide_eq_false
    apply Nat.not_le.mpr
    calc value.natAbs < UInt32.size := small
      _ ≤ Nat.pow 2 54 - 1 := by decide
      _ ≤ (Nat.pow 2 54 - 1) * Nat.pow 2 exponent :=
        Nat.le_mul_of_pos_right _ (Nat.pow_pos (by decide))
  unfold isOutOfRange
  simp only [leading, unscaled, Int.add_zero, single, roundBinary64_of_lt small, Nat.mul_one,
    inside]
  rw [decide_eq_false (by decide : ¬ (309 : Int) ≤ 0), Bool.and_false, Bool.or_false,
    Bool.and_false]

/-- A whole number of 32 bits is read as itself. -/
theorem wideInteger?_ofInt : (ofInt value).wideInteger? = some value := by
  have bounds : (decide (Int64.minValue.toInt ≤ value) && decide (value < UInt64.size)) = true := by
    rw [Int64.toInt_minValue, Bool.and_eq_true, decide_eq_true_eq, decide_eq_true_eq]
    unfold UInt32.size at small
    unfold UInt64.size
    omega
  unfold wideInteger?
  rw [integer?_ofInt, Option.filter_some, if_pos bounds]

end Disassembler.Json.Numeral

namespace Disassembler.Load

open Json

/-- Loading undoes printing if what is printed is loaded as itself. -/
def Undoes {α : Type} (load : Reading → Except Fault α) (toValue : α → Value) : Prop :=
  ∀ value, load (toValue value).reading = .ok value

/-- A printed word is loaded as itself. -/
theorem word_undoes : Undoes word Word.toValue := by
  intro word
  have small : word.toInt.natAbs < UInt32.size := by
    have lower := word.le_toInt
    have upper := word.toInt_lt
    unfold UInt32.size
    omega
  have found : Found.ofReading? (.number (Numeral.ofInt word.toInt)) =
      some (.integer word.toInt) := by
    unfold Found.ofReading?
    simp only [Numeral.isOutOfRange_ofInt small, Numeral.wideInteger?_ofInt small]
    rfl
  show Load.word (.number (Numeral.ofInt word.toInt)) = _
  unfold Load.word
  simp only [found, Word.ofInt?_eq_some_iff.mpr rfl]

/-- A printed string is loaded as itself. -/
theorem string_undoes : Undoes string .string := fun _ => rfl

/-- A printed kind of values is loaded as itself. -/
theorem kind_undoes : Undoes kind fun kind => .string kind.name := by
  intro kind
  show kindName (some kind.name) = _
  rw [kindName, ValueKind.ofName?_name]

/-- Printed items are loaded as themselves if each one is. -/
theorem items_readingItems {α : Type} {load : Reading → Except Fault α} {toValue : α → Value}
    (undoes : Undoes load toValue) (values : List α) :
    items load (Value.readingItems (values.map toValue)) = .ok values := by
  induction values with
  | nil => rfl
  | cons value rest ih => rw [List.map_cons, Value.readingItems, items, undoes, ih]

/-- A printed table is loaded as itself if each entry is. -/
theorem table_undoes {α : Type} {load : Reading → Except Fault α} {toValue : α → Value}
    (undoes : Undoes load toValue) : Undoes (table load) (tableValue toValue) := by
  intro entries
  show List.toArray <$> items load (Value.readingItems (entries.toList.map toValue)) = _
  rw [items_readingItems undoes]
  rfl

end Disassembler.Load
