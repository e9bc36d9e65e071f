import Disassembler.Proofs.Json.Numbers

/-!
# Numbers that are read

Behind characters that the machine took as those of a number it stands where the rules have come to.
So a number that may end there is written by the rules.
-/

namespace Disassembler.Json

namespace Numeral

/-- The characters of a number up to a stage. -/
inductive Begun : NumberStage → Numeral → List Char → Prop where
  /-- The minus sign. -/
  | sign : Begun .sign { negative := true } ['-']
  /-- A zero. -/
  | zero (negative : Bool) :
      Begun .zero { negative, whole := [0] } (signCharacters negative ++ digitCharacters [0])
  /-- Digits that do not start with zero. -/
  | whole (negative : Bool) {whole : List Nat} : AreDigits whole → whole.getLast? ≠ some 0 →
      Begun .whole { negative, whole } (signCharacters negative ++ digitCharacters whole)
  /-- The point. -/
  | point (negative : Bool) {whole : List Nat} : WholePart whole →
      Begun .point { negative, whole } (signCharacters negative ++ digitCharacters whole ++ ['.'])
  /-- Digits behind the point. -/
  | fraction (negative : Bool) {whole fraction : List Nat} : WholePart whole → AreDigits fraction →
      Begun .fraction { negative, whole, fraction }
        (signCharacters negative ++ digitCharacters whole ++ '.' :: digitCharacters fraction)
  /-- The letter of the exponent. -/
  | mark (negative : Bool) {whole fraction : List Nat} {fractionText : List Char} {letter : Char} :
      WholePart whole → FractionPart fraction fractionText → letter = 'e' ∨ letter = 'E' →
      Begun .mark { negative, whole, fraction }
        (signCharacters negative ++ digitCharacters whole ++ fractionText ++ [letter])
  /-- The sign of the exponent. -/
  | exponentSign (negative : Bool) {negativeExponent : Bool} {whole fraction : List Nat}
      {fractionText sign : List Char} {letter : Char} : WholePart whole →
      FractionPart fraction fractionText → letter = 'e' ∨ letter = 'E' →
      ExponentSign negativeExponent sign →
      Begun .exponentSign { negative, whole, fraction, negativeExponent }
        (signCharacters negative ++ digitCharacters whole ++ fractionText ++ letter :: sign)
  /-- Digits of the exponent. -/
  | exponent (negative : Bool) {negativeExponent : Bool} {whole fraction exponent : List Nat}
      {fractionText sign : List Char} {letter : Char} : WholePart whole →
      FractionPart fraction fractionText → letter = 'e' ∨ letter = 'E' →
      ExponentSign negativeExponent sign → AreDigits exponent →
      Begun .exponent { negative, whole, fraction, negativeExponent, exponent }
        (signCharacters negative ++ digitCharacters whole ++ fractionText ++
          letter :: (sign ++ digitCharacters exponent))

/-- A character that is read as a digit is that of the digit. -/
theorem eq_digitChar_of_digit? {c : Char} {digit : Nat}
    (read : NumberStage.digit? c = some digit) : digit < 10 ∧ c = Nat.digitChar digit := by
  unfold NumberStage.digit? at read
  split at read
  · rename_i bounds
    cases read
    have lower : 48 ≤ c.toNat := bounds.1
    have upper : c.toNat ≤ 57 := bounds.2
    have zero : '0'.toNat = 48 := rfl
    refine ⟨by omega, Char.toNat_inj.mp ?_⟩
    rw [Nat.toNat_digitChar_of_lt_ten (by omega)]
    omega
  · cases read

/-- The digit behind a sign is the first one of the number. -/
theorem begun_of_digit (negative : Bool) {digit : Nat} (small : digit < 10) :
    Begun (if digit = 0 then .zero else .whole) { negative, whole := [digit] }
      (signCharacters negative ++ [Nat.digitChar digit]) := by
  by_cases zero : digit = 0
  · subst zero
    exact .zero negative
  · rw [if_neg zero]
    exact .whole negative (areDigits_singleton small) (by simpa using zero)

variable {stage stage' : NumberStage} {numeral numeral' : Numeral} {text : List Char} {c : Char}

/-- A digit that goes on with a number goes on with its characters. -/
theorem Begun.next_digit (begun : Begun stage numeral text) {digit : Nat} (small : digit < 10)
    (next : stage.next? numeral (Nat.digitChar digit) = some (stage', numeral')) :
    Begun stage' numeral' (text ++ [Nat.digitChar digit]) := by
  unfold NumberStage.next? at next
  rw [Lexer.digit?_digitChar small] at next
  cases begun with
  | sign =>
    cases next
    exact begun_of_digit true small
  | zero negative => cases next
  | whole negative written nonzero =>
    cases next
    rw [List.append_assoc, ← digitCharacters_cons]
    exact .whole negative (written.cons small) (written.getLast?_cons_ne nonzero _)
  | point negative whole =>
    cases next
    rw [List.append_assoc]
    exact .fraction negative whole (areDigits_singleton small)
  | fraction negative whole written =>
    cases next
    rw [List.append_assoc, List.cons_append, ← digitCharacters_cons]
    exact .fraction negative whole (written.cons small)
  | mark negative whole fraction letter =>
    cases next
    rw [List.append_assoc]
    exact .exponent negative whole fraction letter .none (areDigits_singleton small)
  | exponentSign negative whole fraction letter sign =>
    cases next
    rw [List.append_assoc, List.cons_append]
    exact .exponent negative whole fraction letter sign (areDigits_singleton small)
  | exponent negative whole fraction letter sign written =>
    cases next
    rw [List.append_assoc _ _ [_], List.cons_append, List.append_assoc _ _ [_],
      ← digitCharacters_cons]
    exact .exponent negative whole fraction letter sign (written.cons small)

/-- A point or a letter behind the digits before the point goes on with their characters. -/
theorem begun_of_wholePart (negative : Bool) {whole : List Nat} (wholePart : WholePart whole)
    (next : (if c = '.' then some (NumberStage.point, ({ negative, whole } : Numeral))
      else if c = 'e' ∨ c = 'E' then some (.mark, { negative, whole })
      else none) = some (stage', numeral')) :
    Begun stage' numeral' (signCharacters negative ++ digitCharacters whole ++ [c]) := by
  split at next
  · rename_i point
    subst point
    cases next
    exact .point negative wholePart
  · split at next
    · rename_i letter
      cases next
      have marked := Begun.mark negative wholePart .absent letter
      rw [List.append_nil] at marked
      exact marked
    · cases next

/-- A character other than a digit that goes on with a number goes on with its characters. -/
theorem Begun.next_mark (begun : Begun stage numeral text) (noDigit : NumberStage.digit? c = none)
    (next : stage.next? numeral c = some (stage', numeral')) :
    Begun stage' numeral' (text ++ [c]) := by
  unfold NumberStage.next? at next
  rw [noDigit] at next
  cases begun with
  | zero negative => exact begun_of_wholePart negative wholePart_zero next
  | whole negative written nonzero =>
    exact begun_of_wholePart negative (written.wholePart nonzero) next
  | fraction negative whole written =>
    simp only at next
    split at next
    · rename_i letter
      cases next
      exact .mark negative whole (.written written) letter
    · cases next
  | mark negative whole fraction letter =>
    simp only at next
    rw [List.append_assoc, List.singleton_append]
    split at next
    · rename_i plus
      subst plus
      cases next
      exact .exponentSign negative whole fraction letter .plus
    · split at next
      · rename_i minus
        subst minus
        cases next
        exact .exponentSign negative whole fraction letter .minus
      · cases next
  | sign | point _ _ | exponentSign _ _ _ _ _ | exponent _ _ _ _ _ _ => cases next

/-- A character that goes on with a number is one byte. -/
theorem small_of_next? (next : stage.next? numeral c = some (stage', numeral')) :
    c.toNat < 0x80 := by
  cases read : NumberStage.digit? c with
  | some digit =>
    obtain ⟨small, rfl⟩ := eq_digitChar_of_digit? read
    exact Lexer.digitChar_small small
  | none =>
    unfold NumberStage.next? at next
    rw [read] at next
    have mark : c = '.' ∨ c = 'e' ∨ c = 'E' ∨ c = '+' ∨ c = '-' := by
      cases stage <;> grind
    rcases mark with rfl | rfl | rfl | rfl | rfl <;> decide

/-- A character that goes on with a number goes on with its characters. -/
theorem Begun.next (begun : Begun stage numeral text)
    (next : stage.next? numeral c = some (stage', numeral')) :
    Begun stage' numeral' (text ++ [c]) := by
  cases read : NumberStage.digit? c with
  | some digit =>
    obtain ⟨small, rfl⟩ := eq_digitChar_of_digit? read
    exact begun.next_digit small next
  | none => exact begun.next_mark read next

/-- A number that may end at a stage is written by the rules. -/
theorem Begun.spelled (begun : Begun stage numeral text) (complete : stage.isComplete = true) :
    numeral.Spelled text := by
  cases begun with
  | zero negative =>
    have written := @Spelled.parts negative _ _ _ _ _ _ wholePart_zero .absent .absent
    simp only [List.append_nil] at written
    exact written
  | whole negative digits nonzero =>
    have written := @Spelled.parts negative _ _ _ _ _ _ (digits.wholePart nonzero) .absent .absent
    simp only [List.append_nil] at written
    exact written
  | fraction negative whole digits =>
    have written := @Spelled.parts negative _ _ _ _ _ _ whole (.written digits) .absent
    simp only [List.append_nil] at written
    exact written
  | exponent negative whole fraction letter sign digits =>
    exact .parts whole fraction (.written letter sign digits)
  | sign | point _ _ | mark _ _ _ _ | exponentSign _ _ _ _ _ => cases complete

end Numeral

end Disassembler.Json
