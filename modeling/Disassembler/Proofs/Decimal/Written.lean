import Disassembler.Proofs.Decimal.Numerals

/-!
# Numerals of bit patterns

A finite number of a binary format is shown as a plain numeral that stands for its pattern: with its
sign it rounds to that pattern and to nothing else, and no decimal with fewer digits rounds to it.
For zero that is the digit zero, and for all others it is the numeral of the coarsest decimal of the
interval of their magnitude. So two patterns with the same text are the same, unless they stand for
no number.
-/

namespace Disassembler

namespace BinaryFormat

open PlainNumeral (signed)

variable (format : BinaryFormat) {pattern other : Nat} {number : ℚ}

/-- The number of patterns of a format. -/
def patterns : Nat := 2 ^ (format.exponentBits + format.fractionBits + 1)

/-- A number with a sign rounds to a pattern. -/
structure Rounds (negative : Bool) (number : ℚ) (pattern : Nat) : Prop where
  /-- The signs are the same. -/
  sign : format.isNegative pattern = negative
  /-- The number rounds to the magnitude. -/
  magnitude : format.RoundsTo number (format.magnitudeBits pattern)

/-- A numeral stands for a pattern. -/
structure WrittenAs (pattern : Nat) (numeral : PlainNumeral) : Prop where
  /-- There is a minus sign exactly if the sign bit is set. -/
  sign : numeral.negative = format.isNegative pattern
  /-- The numeral rounds to the pattern, and to no other one. -/
  rounds : ∀ other < format.patterns,
    format.Rounds numeral.negative numeral.magnitude other ↔ other = pattern
  /-- A whole number has no decimal places. -/
  whole : numeral.places = [] ↔ ∃ number : Nat, numeral.magnitude = number
  /-- No decimal with fewer digits rounds to the pattern. -/
  shortest : ∀ (decimal : Decimal) (count : Nat), decimal.digits < 10 ^ count →
    format.Rounds numeral.negative decimal.value pattern →
      numeral.significantDigits.length ≤ count

/-- A pattern is told by its sign and its magnitude. -/
theorem pattern_eq (bounded : pattern < format.patterns) (bounded' : other < format.patterns)
    (signs : format.isNegative pattern = format.isNegative other)
    (magnitudes : format.magnitudeBits pattern = format.magnitudeBits other) : pattern = other := by
  unfold patterns at bounded bounded'
  rw [pow_succ] at bounded bounded'
  unfold isNegative at signs
  unfold magnitudeBits at magnitudes
  simp only [Nat.pow_eq] at signs
  generalize 2 ^ (format.exponentBits + format.fractionBits) = half at *
  have low : pattern / half < 2 := Nat.div_lt_of_lt_mul bounded
  have low' : other / half < 2 := Nat.div_lt_of_lt_mul bounded'
  rw [Nat.mod_eq_of_lt low, Nat.mod_eq_of_lt low', Bool.eq_iff_iff, beq_iff_eq, beq_iff_eq] at signs
  have halves : pattern / half = other / half := by
    generalize pattern / half = first, other / half = second at signs low low'
    omega
  rw [← Nat.div_add_mod pattern half, ← Nat.div_add_mod other half, halves, magnitudes]

/-- A number that rounds to the magnitude of a pattern rounds, with the sign of the pattern, to that
pattern and to no other. -/
theorem rounds_iff_eq (bounded : pattern < format.patterns) (bounded' : other < format.patterns)
    (rounds : format.RoundsTo number (format.magnitudeBits pattern)) :
    format.Rounds (format.isNegative pattern) number other ↔ other = pattern := by
  constructor
  · intro roundsOther
    exact format.pattern_eq bounded' bounded roundsOther.sign
      (roundsOther.magnitude.unique rounds)
  · rintro rfl
    exact ⟨rfl, rounds⟩

/-- The characters of a finite number are its sign and the text of its magnitude. -/
theorem characters_of_isFinite (finite : format.IsFinite pattern) :
    format.characters pattern = signed (format.isNegative pattern)
      (magnitudeText (format.significand (format.magnitudeBits pattern))
        (format.exponent (format.magnitudeBits pattern))
        (format.narrow (format.magnitudeBits pattern))) := by
  unfold IsFinite at finite
  rw [characters, value_eq, if_pos finite]
  rfl

/-- The characters of an infinity are its sign and a word. -/
theorem characters_of_infinity (infinite : format.magnitudeBits pattern = format.infinity) :
    format.characters pattern = signed (format.isNegative pattern) "inf".toList := by
  rw [characters, value_eq, if_neg (by omega), if_pos infinite]
  rfl

/-- The numeral of zero stands for a pattern without a magnitude. -/
theorem writtenAs_zero (bounded : pattern < format.patterns) (finite : format.IsFinite pattern)
    (none : format.magnitudeBits pattern = 0) :
    format.WrittenAs pattern (.zero (format.isNegative pattern)) where
  sign := rfl
  rounds := by
    intro other bounded'
    rw [PlainNumeral.magnitude_zero]
    refine format.rounds_iff_eq bounded bounded' ?_
    have rounds := format.roundsTo_magnitude finite
    rwa [none, magnitude_zero, ← none] at rounds
  whole := PlainNumeral.places_eq_nil_iff
  shortest := by
    intro decimal count _ _
    rw [PlainNumeral.significantDigits_zero]
    exact Nat.zero_le count

/-- The numeral of a coarsest decimal that rounds to the magnitude of a pattern stands for it. -/
theorem writtenAs_ofDecimal {decimal : Decimal} (bounded : pattern < format.patterns)
    (positive : 0 < format.magnitudeBits pattern)
    (coarsest : decimal.IsCoarsest
      {number | format.RoundsTo number (format.magnitudeBits pattern)}) :
    format.WrittenAs pattern
      (.ofDecimal (format.isNegative pattern) decimal coarsest.digits_mod_ten) where
  sign := rfl
  rounds := by
    intro other bounded'
    rw [PlainNumeral.magnitude_ofDecimal]
    exact format.rounds_iff_eq bounded bounded' coarsest.mem
  whole := PlainNumeral.places_eq_nil_iff
  shortest := by
    intro other count short rounds
    rw [PlainNumeral.significantDigits_ofDecimal]
    have nonzero := coarsest.digits_mod_ten
    have fewer := coarsest.digits_lt (format.ordConnected_roundsTo _)
      (format.not_roundsTo_zero positive) short rounds.magnitude
    cases count with
    | zero => omega
    | succ count => exact (Nat.length_toDigits_le_iff (by decide) count.succ_pos).mpr fewer

/-- A finite number is shown as a numeral that stands for it. -/
theorem exists_writtenAs (fractions : 0 < format.fractionBits) (bounded : pattern < format.patterns)
    (finite : format.IsFinite pattern) :
    ∃ numeral : PlainNumeral, format.characters pattern = numeral.characters ∧
      format.WrittenAs pattern numeral := by
  rw [format.characters_of_isFinite finite]
  obtain none | positive := Nat.eq_zero_or_pos (format.magnitudeBits pattern)
  · refine ⟨_, ?_, format.writtenAs_zero bounded finite none⟩
    have nothing : format.significand 0 = 0 := by simp [significand]
    rw [none, nothing]
    rfl
  · have coarsest := (format.covers_interval fractions positive finite).isCoarsest_shortest
    refine ⟨_, ?_, format.writtenAs_ofDecimal bounded positive coarsest⟩
    rw [magnitudeText, if_neg (format.significand_pos positive).ne', PlainNumeral.characters,
      PlainNumeral.unsigned_ofDecimal]
    rfl

/-- A finite number is not shown as an infinity. -/
theorem characters_ne_of_isFinite (fractions : 0 < format.fractionBits)
    (bounded : pattern < format.patterns) (finite : format.IsFinite pattern)
    (infinite : format.magnitudeBits other = format.infinity) :
    format.characters pattern ≠ format.characters other := by
  obtain ⟨numeral, shown, -⟩ := format.exists_writtenAs fractions bounded finite
  rw [shown, format.characters_of_infinity infinite]
  intro same
  obtain ⟨-, word⟩ := PlainNumeral.signed_inj (numeral.head?_unsigned_ne rfl) (by decide) same
  exact numeral.head?_unsigned_ne rfl (congrArg List.head? word)

/-- A number, which may be infinite, is not shown as another one. -/
theorem characters_inj (fractions : 0 < format.fractionBits) (bounded : pattern < format.patterns)
    (bounded' : other < format.patterns) (number : ¬ format.IsNaN pattern)
    (number' : ¬ format.IsNaN other) (same : format.characters pattern = format.characters other) :
    pattern = other := by
  obtain finite | infinite := (not_lt.mp number).lt_or_eq
  · obtain finite' | infinite' := (not_lt.mp number').lt_or_eq
    · obtain ⟨numeral, shown, written⟩ := format.exists_writtenAs fractions bounded finite
      obtain ⟨numeral', shown', written'⟩ := format.exists_writtenAs fractions bounded' finite'
      obtain rfl := PlainNumeral.characters_inj.mp (shown.symm.trans (same.trans shown'))
      have rounds := (written'.rounds other bounded').mpr rfl
      exact ((written.rounds other bounded').mp rounds).symm
    · exact absurd same (format.characters_ne_of_isFinite fractions bounded finite infinite')
  · obtain finite' | infinite' := (not_lt.mp number').lt_or_eq
    · exact absurd same.symm (format.characters_ne_of_isFinite fractions bounded' finite' infinite)
    · rw [format.characters_of_infinity infinite, format.characters_of_infinity infinite'] at same
      obtain ⟨signs, -⟩ := PlainNumeral.signed_inj (by decide) (by decide) same
      exact format.pattern_eq bounded bounded' signs (infinite.trans infinite'.symm)

end BinaryFormat

end Disassembler
