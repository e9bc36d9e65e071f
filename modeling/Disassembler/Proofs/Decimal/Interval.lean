import Disassembler.Decimal.Shortest
import Disassembler.Proofs.Decimal.Rounding
import Mathlib.Tactic.FieldSimp
import Mathlib.Tactic.LinearCombination

/-!
# The interval of a magnitude

A pattern stands for the number of its magnitude, for an infinity or for no number, by the order of
its bits and those of the infinity. The interval of a finite magnitude other than zero counts
quarters of a power of ten, so that both midpoints beside the magnitude are whole numbers of them.
The quarters in it are those that round to the magnitude.
-/

namespace Disassembler

namespace RoundingInterval

variable (interval : RoundingInterval)

/-- The number of some quarters. -/
def number (quarters : Nat) : ℚ := quarters / 4 * 10 ^ interval.base

/-- Numbers grow with their quarters. -/
theorem number_strictMono : StrictMono interval.number := by
  intro quarters others fewer
  refine mul_lt_mul_of_pos_right ?_ (by positivity)
  have : (quarters : ℚ) < others := by exact_mod_cast fewer
  linarith

/-- No quarters are zero. -/
theorem number_zero : interval.number 0 = 0 := by simp [number]

/-- An interval counts the quarters of some numbers without gaps, its center is a whole number among
them, and zero is not. -/
structure Covers (interval : RoundingInterval) (numbers : Set ℚ) : Prop where
  /-- There are no gaps between the numbers. -/
  connected : numbers.OrdConnected
  /-- The quarters in the interval are those of the numbers. -/
  contains_iff : ∀ quarters, interval.contains quarters = true ↔ interval.number quarters ∈ numbers
  /-- The center is among the numbers. -/
  center_mem : interval.number interval.center ∈ numbers
  /-- The center is on the finest grid. -/
  center_mod_four : interval.center % 4 = 0
  /-- Zero is not among the numbers. -/
  zero_notMem : (0 : ℚ) ∉ numbers

/-- The interval of a binary number counts, up to a scale, the quarters of the last place of the
number. -/
theorem exists_scale (significand : Nat) (exponent : Int) (narrow : Bool) :
    ∃ scale : Nat,
      (∀ quarters : Nat, (ofBinary significand exponent narrow).number (quarters * scale) =
        quarters / 4 * 2 ^ exponent) ∧
      (ofBinary significand exponent narrow).center = 4 * significand * scale ∧
      (ofBinary significand exponent narrow).low =
        (4 * significand - if narrow then 1 else 2) * scale ∧
      (ofBinary significand exponent narrow).high = (4 * significand + 2) * scale := by
  refine ⟨_, fun quarters => ?_, rfl, rfl, rfl⟩
  show (_ / 4 * 10 ^ min exponent 0 : ℚ) = _
  split
  · rename_i negative
    obtain ⟨places, rfl⟩ := Int.exists_eq_neg_ofNat negative.le
    have ten : (10 : ℚ) = 2 * 5 := by norm_num
    rw [min_eq_left negative.le, neg_neg, Int.toNat_natCast, zpow_neg, zpow_neg, zpow_natCast,
      zpow_natCast, Nat.pow_eq, ten, mul_pow]
    push_cast
    field_simp
  · rename_i nonnegative
    obtain ⟨places, rfl⟩ := Int.eq_ofNat_of_zero_le (not_lt.mp nonnegative)
    rw [min_eq_right (not_lt.mp nonnegative), zpow_zero, mul_one, Int.toNat_natCast, Nat.pow_eq,
      zpow_natCast]
    push_cast
    ring

end RoundingInterval

namespace BinaryFormat

variable (format : BinaryFormat) {bits : Nat}

/-- The magnitude of a pattern is that of a finite number. -/
def IsFinite (pattern : Nat) : Prop := format.magnitudeBits pattern < format.infinity

/-- A pattern stands for no number. -/
def IsNaN (pattern : Nat) : Prop := format.infinity < format.magnitudeBits pattern

/-- The exponent that the last place of a magnitude counts. -/
def exponent (bits : Nat) : Int := format.leastExponent + format.shift bits

/-- The next smaller magnitude is half as far away as the next larger one, because its last place is
smaller. -/
def narrow (bits : Nat) : Bool :=
  bits % 2 ^ format.fractionBits == 0 && decide (1 < bits / 2 ^ format.fractionBits)

/-- The interval of a magnitude. -/
def interval (bits : Nat) : RoundingInterval :=
  .ofBinary (format.significand bits) (format.exponent bits) (format.narrow bits)

/-- A magnitude is its significand in its last place. -/
theorem magnitude_eq (bits : Nat) :
    format.magnitude bits = format.significand bits * 2 ^ format.exponent bits := by
  unfold magnitude units exponent
  rw [zpow_add₀ two_ne_zero, zpow_natCast]
  push_cast
  ring

/-- What a pattern stands for, by the order of its bits and those of the infinity. -/
theorem value_eq (pattern : Nat) :
    format.value pattern =
      if format.magnitudeBits pattern < format.infinity then
        .finite (format.isNegative pattern) (format.significand (format.magnitudeBits pattern))
          (format.exponent (format.magnitudeBits pattern))
          (format.narrow (format.magnitudeBits pattern))
      else if format.magnitudeBits pattern = format.infinity then
        .infinite (format.isNegative pattern)
      else .nan := by
  have biased : format.biasedExponent pattern =
      format.magnitudeBits pattern / 2 ^ format.fractionBits := by
    unfold biasedExponent magnitudeBits
    rw [Nat.add_comm, pow_add, Nat.mod_mul_right_div_self]
    rfl
  have fraction : format.fraction pattern =
      format.magnitudeBits pattern % 2 ^ format.fractionBits := by
    unfold BinaryFormat.fraction magnitudeBits
    rw [Nat.add_comm, pow_add, Nat.mod_mul_right_mod]
    rfl
  have bounded : format.magnitudeBits pattern / 2 ^ format.fractionBits <
      2 ^ format.exponentBits := by
    rw [Nat.div_lt_iff_lt_mul (Nat.two_pow_pos _), ← pow_add]
    exact Nat.mod_lt _ (Nat.two_pow_pos _)
  have unlimited : ¬ format.magnitudeBits pattern < format.infinity ↔
      format.magnitudeBits pattern / 2 ^ format.fractionBits = 2 ^ format.exponentBits - 1 := by
    unfold infinity
    rw [not_lt, ← Nat.le_div_iff_mul_le (Nat.two_pow_pos _)]
    omega
  unfold value
  simp only [biased, fraction, Nat.pow_eq]
  generalize format.magnitudeBits pattern = bits at unlimited
  by_cases finite : bits < format.infinity
  · rw [if_pos finite, if_neg (unlimited.not.mp (not_not.mpr finite))]
    unfold significand exponent narrow shift
    split
    · rename_i zero
      have small := Nat.mod_eq_of_lt (Nat.lt_of_div_eq_zero (Nat.two_pow_pos _) zero)
      simp [zero, small]
    · rename_i normal
      generalize bits / 2 ^ format.fractionBits = exponent at normal
      have larger : (exponent != 1) = decide (1 < exponent) := by
        rw [Bool.eq_iff_iff, bne_iff_ne, decide_eq_true_eq]
        omega
      rw [Nat.cast_pred (Nat.pos_of_ne_zero normal), larger]
  · have top := unlimited.mp finite
    have whole := Nat.div_add_mod bits (2 ^ format.fractionBits)
    have least : bits = format.infinity ↔ bits % 2 ^ format.fractionBits = 0 := by
      unfold infinity
      rw [← top, Nat.mul_comm]
      omega
    rw [if_neg finite, if_pos top]
    simp only [least]

/-- The last place of a magnitude is larger than that of the next smaller one only if that one is
half as far away. -/
theorem shift_succ (bits : Nat) :
    format.shift (bits + 1) = format.shift bits + if format.narrow (bits + 1) then 1 else 0 := by
  have positive : 0 < 2 ^ format.fractionBits := Nat.two_pow_pos _
  have next := Nat.succ_div (a := bits) (b := 2 ^ format.fractionBits)
  unfold shift narrow
  simp only [Bool.and_eq_true, beq_iff_eq, decide_eq_true_eq, ← Nat.dvd_iff_mod_eq_zero]
  split at next
  · rename_i carry
    simp only [carry, true_and]
    split <;> omega
  · rename_i carry
    simp [carry, next]

/-- The midpoint below a magnitude, in units of its last place. -/
theorem units_add_units_succ (bits : Nat) :
    2 * (format.units bits + format.units (bits + 1)) +
        (if format.narrow (bits + 1) then 1 else 2) * 2 ^ format.shift (bits + 1) =
      4 * format.significand (bits + 1) * 2 ^ format.shift (bits + 1) := by
  have place : (if format.narrow (bits + 1) then 1 else 2) * 2 ^ format.shift (bits + 1) =
      2 * 2 ^ format.shift bits := by
    rw [shift_succ]
    split <;> ring
  have next := format.units_succ bits
  have whole : format.units (bits + 1) =
      format.significand (bits + 1) * 2 ^ format.shift (bits + 1) := rfl
  rw [place, Nat.mul_assoc, ← whole]
  omega

/-- A magnitude with bits has a significand. -/
theorem significand_pos (positive : 0 < bits) : 0 < format.significand bits := by
  unfold significand
  split
  · exact positive
  · exact Nat.add_pos_left (Nat.two_pow_pos _) _

/-- A magnitude has even bits exactly if its significand is even. -/
theorem significand_mod_two (fractions : 0 < format.fractionBits) :
    format.significand bits % 2 = bits % 2 := by
  have even : 2 ∣ 2 ^ format.fractionBits := dvd_pow_self 2 fractions.ne'
  unfold significand
  split
  · rfl
  · rw [Nat.add_mod, Nat.mod_mod_of_dvd bits even, Nat.mod_eq_zero_of_dvd even, Nat.zero_add,
      Nat.mod_mod]

/-- The center of the interval of a magnitude is its number. -/
theorem number_center : (format.interval bits).number (format.interval bits).center =
    format.magnitude bits := by
  obtain ⟨scale, counts, center, -⟩ := RoundingInterval.exists_scale (format.significand bits)
    (format.exponent bits) (format.narrow bits)
  unfold interval
  rw [center, counts, magnitude_eq]
  push_cast
  ring

/-- The upper end of the interval of a magnitude is the midpoint above it. -/
theorem number_high : 2 * (format.interval bits).number (format.interval bits).high =
    format.magnitude bits + format.magnitude (bits + 1) := by
  obtain ⟨scale, counts, -, -, high⟩ := RoundingInterval.exists_scale (format.significand bits)
    (format.exponent bits) (format.narrow bits)
  have next : format.magnitude (bits + 1) = format.magnitude bits + 2 ^ format.exponent bits := by
    unfold magnitude exponent
    rw [units_succ, zpow_add₀ two_ne_zero, zpow_natCast]
    push_cast
    ring
  unfold interval
  rw [high, counts, next, magnitude_eq]
  push_cast
  ring

/-- The lower end of the interval of a magnitude is the midpoint below it. -/
theorem number_low : 2 * (format.interval (bits + 1)).number (format.interval (bits + 1)).low =
    format.magnitude bits + format.magnitude (bits + 1) := by
  obtain ⟨scale, counts, -, low, -⟩ := RoundingInterval.exists_scale (format.significand (bits + 1))
    (format.exponent (bits + 1)) (format.narrow (bits + 1))
  have positive : 0 < format.significand (bits + 1) := format.significand_pos bits.succ_pos
  have fits : (if format.narrow (bits + 1) then 1 else 2) ≤ 4 * format.significand (bits + 1) := by
    split <;> omega
  have midpoint : 2 * (format.magnitude bits + format.magnitude (bits + 1)) =
      (4 * format.significand (bits + 1) - (if format.narrow (bits + 1) then 1 else 2 : ℕ)) *
        2 ^ format.exponent (bits + 1) := by
    have total := congrArg (Nat.cast (R := ℚ)) (format.units_add_units_succ bits)
    unfold magnitude exponent
    rw [zpow_add₀ two_ne_zero, zpow_natCast]
    push_cast at total ⊢
    linear_combination 2 ^ format.leastExponent * total
  unfold interval
  rw [low, counts, Nat.cast_sub fits, Nat.cast_mul, Nat.cast_ofNat]
  linear_combination -midpoint / 2

/-- The quarters in the interval of a magnitude are those that round to it. -/
theorem contains_iff (fractions : 0 < format.fractionBits) (positive : 0 < bits)
    (finite : bits < format.infinity) {quarters : Nat} :
    (format.interval bits).contains quarters = true ↔
      format.RoundsTo ((format.interval bits).number quarters) bits := by
  obtain ⟨below, rfl⟩ := Nat.exists_eq_succ_of_ne_zero positive.ne'
  have closed : (format.interval (below + 1)).closed = ((below + 1) % 2 == 0) := by
    rw [← format.significand_mod_two fractions]
    rfl
  have before {first last : Nat} : Before (below + 1)
      (2 * (format.interval (below + 1)).number first)
      (2 * (format.interval (below + 1)).number last) ↔
        first ≤ last ∧ (first = last → (below + 1) % 2 = 0) := by
    unfold Before
    rw [mul_le_mul_iff_right₀ two_pos, mul_right_inj' two_ne_zero,
      (RoundingInterval.number_strictMono _).le_iff_le,
      (RoundingInterval.number_strictMono _).injective.eq_iff]
  have lower : (∀ other, other + 1 = below + 1 →
      Before (below + 1) (format.magnitude other + format.magnitude (below + 1))
        (2 * (format.interval (below + 1)).number quarters)) ↔
      (format.interval (below + 1)).low ≤ quarters ∧
        ((format.interval (below + 1)).low = quarters → (below + 1) % 2 = 0) := by
    simp only [Nat.add_right_cancel_iff, forall_eq, ← number_low, before]
  rw [roundsTo_iff, lower, ← number_high, before, RoundingInterval.contains, closed]
  generalize (format.interval (below + 1)).low = low, (format.interval (below + 1)).high = high
  split
  · rename_i even
    simp [finite, beq_iff_eq.mp even]
  · rename_i odd
    rw [beq_iff_eq] at odd
    simp only [finite, odd, Bool.and_eq_true, decide_eq_true_eq, true_and, imp_false,
      Nat.lt_iff_le_and_ne]

/-- The interval of a finite magnitude with bits counts the numbers that round to it. -/
theorem covers_interval (fractions : 0 < format.fractionBits) (positive : 0 < bits)
    (finite : bits < format.infinity) :
    (format.interval bits).Covers {number | format.RoundsTo number bits} where
  connected := format.ordConnected_roundsTo bits
  contains_iff := fun _ => format.contains_iff fractions positive finite
  center_mem := by
    rw [number_center]
    exact format.roundsTo_magnitude finite
  center_mod_four := by
    obtain ⟨scale, -, center, -⟩ := RoundingInterval.exists_scale (format.significand bits)
      (format.exponent bits) (format.narrow bits)
    rw [interval, center, Nat.mul_assoc, Nat.mul_mod_right]
  zero_notMem := format.not_roundsTo_zero positive

end BinaryFormat

end Disassembler
