import Disassembler.Proofs.Load.Success
import Disassembler.Proofs.Load.Scalar

/-!
# Words and their texts

A number is loaded as a word only if it is written as the text of the word is: a number that is
written with a fraction, with an exponent or as a negative zero is not whole, and the digits of a
whole number stand for no other one.
-/

namespace Disassembler

namespace Json.Numeral

/-- Digits that do not start with zero stand for a positive number. -/
theorem digitsValue_pos {digits : List Nat} (written : AreDigits digits)
    (nonzero : digits.getLast? ≠ some 0) : 0 < digitsValue digits := by
  obtain ⟨nonempty, small⟩ := written
  induction digits with
  | nil => exact absurd rfl nonempty
  | cons digit rest ih =>
    rw [digitsValue]
    cases rest with
    | nil =>
      have positive : digit ≠ 0 := fun zero => nonzero (congrArg some zero)
      omega
    | cons second rest =>
      rw [List.getLast?_cons_cons] at nonzero
      have others := ih nonzero (List.cons_ne_nil _ _) (List.forall_mem_cons.mp small).2
      omega

/-- The digits before the point are those of the number that they stand for. -/
theorem digits_digitsValue {written : List Nat} (wholePart : WholePart written) :
    digits (digitsValue written) = written := by
  induction written with
  | nil => exact absurd rfl wholePart.nonempty
  | cons digit rest ih =>
    obtain ⟨small, others⟩ := List.forall_mem_cons.mp wholePart.small
    cases rest with
    | nil =>
      have value : digitsValue [digit] = digit := by simp [digitsValue]
      rw [value, digits, if_pos small]
    | cons second rest =>
      have nonzero : (second :: rest).getLast? ≠ some 0 := by
        intro zero
        have single := wholePart.noLeadingZero (List.getLast?_cons_cons.trans zero)
        cases single
      have inner : AreDigits (second :: rest) := ⟨List.cons_ne_nil _ _, others⟩
      have positive := digitsValue_pos inner nonzero
      have last : (10 * digitsValue (second :: rest) + digit) % 10 = digit := by omega
      have first : (10 * digitsValue (second :: rest) + digit) / 10 =
          digitsValue (second :: rest) := by omega
      rw [digitsValue, digits, if_neg (by omega), last, first, ih (inner.wholePart nonzero)]

/-- A number that is written as a whole number is written as that is printed. -/
theorem Spelled.eq_ofInt {numeral : Numeral} {text : List Char} (spelled : numeral.Spelled text)
    {value : Int} (whole : numeral.integer? = some value) :
    numeral = ofInt value ∧ text = integerCharacters value := by
  cases spelled with
  | @parts negative _ written _ _ _ _ wholePart fractionPart exponentPart =>
    cases fractionPart with
    | written digits => simp [integer?, digits.nonempty] at whole
    | absent =>
    cases exponentPart with
    | written _ _ digits => simp [integer?, digits.nonempty] at whole
    | absent =>
    have value_eq : negative = decide (value < 0) ∧ digitsValue written = value.natAbs := by
      simp only [integer?, List.isEmpty_nil, Bool.not_true, Bool.or_self, Bool.false_eq_true,
        ↓reduceIte] at whole
      cases negative with
      | false =>
        cases whole
        exact ⟨by simp, by simp⟩
      | true =>
        simp only [↓reduceIte, Option.ite_none_left_eq_some, Option.some.injEq] at whole
        obtain ⟨nonzero, rfl⟩ := whole
        refine ⟨?_, by simp⟩
        rw [eq_comm, decide_eq_true_eq]
        omega
    obtain ⟨rfl, magnitude⟩ := value_eq
    have shown : digits value.natAbs = written := by
      rw [← magnitude]
      exact digits_digitsValue wholePart
    rw [← shown, List.append_nil, List.append_nil]
    exact ⟨rfl, (integerCharacters_eq value).symm⟩

end Json.Numeral

open Json

/-- The text of a word is that of a whole number. -/
theorem Word.toList_text (word : Word) :
    (Word.text word).toList = integerCharacters word.toInt := by
  show word.toInt.repr.toList = _
  cases word.toInt with
  | ofNat value => exact Nat.toList_repr
  | negSucc value =>
    have text : (Int.negSucc value).repr = "-" ++ (value + 1).repr := rfl
    rw [text, String.toList_append, Nat.toList_repr]
    rfl

namespace Load

/-- Words are loaded from numbers only. -/
theorem number_of_word {reading : Reading} {value : Word} (loaded : word reading = .ok value) :
    ∃ numeral, reading = .number numeral := by
  cases reading with
  | number numeral => exact ⟨numeral, rfl⟩
  | null | bool _ | string _ | array _ | object _ | damaged => cases loaded

/-- A word that may be null is loaded from a number if it is not null. -/
theorem number_of_nullable_word {reading : Reading} {value : Word}
    (loaded : nullable word reading = .ok (some value)) : ∃ numeral, reading = .number numeral := by
  cases reading with
  | number numeral => exact ⟨numeral, rfl⟩
  | null | bool _ | string _ | array _ | object _ | damaged => cases loaded

/-- The text of a word is a number that is loaded as the word. -/
theorem word_of_text (value : Word) :
    (Numeral.ofInt value.toInt).Spelled (Word.text value).toList ∧
      word (.number (Numeral.ofInt value.toInt)) = .ok value := by
  rw [Word.toList_text]
  exact ⟨Numeral.spelled_ofInt _, word_undoes value⟩

/-- A number that is loaded as a word is written as the text of the word. -/
theorem text_of_word {numeral : Numeral} {text : List Char} (spelled : numeral.Spelled text)
    {value : Word} (loaded : word (.number numeral) = .ok value) :
    text = (Word.text value).toList := by
  have whole : numeral.integer? = some value.toInt := by
    unfold word Found.ofReading? at loaded
    cases outside : numeral.isOutOfRange with
    | true => simp [outside] at loaded
    | false =>
      cases wide : numeral.wideInteger? with
      | none => simp [outside, wide] at loaded
      | some found =>
        cases fits : Word.ofInt? found with
        | none => simp [outside, wide, fits] at loaded
        | some held =>
          simp only [outside, wide, fits, Bool.false_eq_true, ↓reduceIte, Except.ok.injEq] at loaded
          rw [← loaded, Word.toInt_of_ofInt? fits]
          exact (Option.filter_eq_some_iff.mp wide).1
  rw [Word.toList_text]
  exact (spelled.eq_ofInt whole).2

end Load

end Disassembler
