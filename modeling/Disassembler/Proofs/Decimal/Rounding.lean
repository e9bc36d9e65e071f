import Disassembler.Binary
import Mathlib.Algebra.Order.Field.Power
import Mathlib.Algebra.Order.Field.Rat
import Mathlib.Order.Interval.Set.OrdConnected
import Mathlib.Tactic.Linarith
import Mathlib.Tactic.Positivity
import Mathlib.Tactic.Ring

/-!
# Rounding to the nearest magnitude

The bits below the sign of a pattern are its magnitude. In the order of the bits the magnitudes
grow, and each one is a whole number of units of the last place of the smallest ones. A number
rounds to the nearest magnitude, and of two that are equally near to the one with the even bits. Two
neighbours meet halfway, so the numbers that round to one magnitude lie between two midpoints.
-/

namespace Disassembler

namespace BinaryFormat

variable (format : BinaryFormat) {bits other : Nat} {number : ℚ}

/-- The bits of a pattern below its sign. -/
def magnitudeBits (pattern : Nat) : Nat := pattern % 2 ^ (format.exponentBits + format.fractionBits)

/-- The bits of an infinity below its sign. All finite numbers have smaller ones. -/
def infinity : Nat := (2 ^ format.exponentBits - 1) * 2 ^ format.fractionBits

/-- The significand of a magnitude. All but the smallest ones have a leading bit that is not among
their bits. -/
def significand (bits : Nat) : Nat :=
  if bits / 2 ^ format.fractionBits = 0 then bits
  else 2 ^ format.fractionBits + bits % 2 ^ format.fractionBits

/-- The number of binary places between the last place of a magnitude and that of the smallest
ones. -/
def shift (bits : Nat) : Nat := bits / 2 ^ format.fractionBits - 1

/-- A magnitude in units of the last place of the smallest ones. -/
def units (bits : Nat) : Nat := format.significand bits * 2 ^ format.shift bits

/-- The number of a magnitude. From the infinity on, numbers are given as if exponents had no
bound. -/
def magnitude (bits : Nat) : ℚ := format.units bits * 2 ^ format.leastExponent

/-- The next magnitude is larger by one in the last place. -/
theorem units_succ (bits : Nat) :
    format.units (bits + 1) = format.units bits + 2 ^ format.shift bits := by
  unfold units significand shift
  generalize whole : 2 ^ format.fractionBits = fractions
  have positive : 0 < fractions := whole ▸ Nat.two_pow_pos _
  have split := Nat.div_add_mod bits fractions
  have inside := Nat.mod_lt bits positive
  generalize bits / fractions = exponent, bits % fractions = fraction at split inside
  obtain inner | last : fraction + 1 < fractions ∨ fraction + 1 = fractions := by omega
  · obtain ⟨nextExponent, nextFraction⟩ := (Nat.div_mod_unique positive).mpr
      ⟨(by omega : fraction + 1 + fractions * exponent = bits + 1), inner⟩
    rw [nextExponent, nextFraction]
    split
    · rename_i zero
      subst zero
      omega
    · ring
  · -- The fraction starts again, and the next exponent makes up for the leading bit.
    obtain ⟨nextExponent, nextFraction⟩ := (Nat.div_mod_unique positive).mpr
      ⟨(by rw [Nat.mul_add]; omega : 0 + fractions * (exponent + 1) = bits + 1), positive⟩
    rw [nextExponent, nextFraction, if_neg (Nat.succ_ne_zero exponent)]
    cases exponent with
    | zero => simp; omega
    | succ exponent =>
      rw [if_neg (Nat.succ_ne_zero exponent), Nat.add_sub_cancel, Nat.add_sub_cancel, pow_succ,
        ← last]
      ring

/-- The units of the magnitudes grow with their bits. -/
theorem units_strictMono : StrictMono format.units :=
  strictMono_nat_of_lt_succ fun bits => by
    rw [units_succ]
    exact Nat.lt_add_of_pos_right (Nat.two_pow_pos _)

/-- The magnitudes grow with their bits. -/
theorem magnitude_strictMono : StrictMono format.magnitude := by
  intro bits other smaller
  refine mul_lt_mul_of_pos_right ?_ (by positivity)
  exact_mod_cast format.units_strictMono smaller

/-- The magnitude without any bits is zero. -/
theorem magnitude_zero : format.magnitude 0 = 0 := by
  simp [magnitude, units, significand]

/-- A number rounds to a magnitude: the magnitude is finite, none is nearer, and it has even bits if
another one is equally near. -/
structure RoundsTo (number : ℚ) (bits : Nat) : Prop where
  /-- The magnitude is finite. A number that is nearest to a magnitude from the infinity on is too
  large for the format. -/
  finite : bits < format.infinity
  /-- No magnitude is nearer. -/
  nearest : ∀ other, |number - format.magnitude bits| ≤ |number - format.magnitude other|
  /-- Of two that are equally near it is the one with the even bits. -/
  even : ∀ other, other ≠ bits →
    |number - format.magnitude bits| = |number - format.magnitude other| → bits % 2 = 0

/-- The number of a finite magnitude rounds to it. -/
theorem roundsTo_magnitude (finite : bits < format.infinity) :
    format.RoundsTo (format.magnitude bits) bits := by
  refine ⟨finite, fun other => ?nearest, fun other distinct tie => ?even⟩
  case nearest =>
    rw [sub_self, abs_zero]
    exact abs_nonneg _
  case even =>
    rw [sub_self, abs_zero, eq_comm, abs_eq_zero, sub_eq_zero] at tie
    exact absurd (format.magnitude_strictMono.injective tie.symm) distinct

/-- Which of two numbers is nearer is told by the side of their midpoint. -/
theorem abs_sub_le_abs_sub_iff {first second : ℚ} :
    |number - first| ≤ |number - second| ↔
      0 ≤ (second - first) * (first + second - 2 * number) := by
  have squares : (number - second) ^ 2 - (number - first) ^ 2 =
      (second - first) * (first + second - 2 * number) := by ring
  rw [← sq_le_sq, ← sub_nonneg, squares]

/-- The lower one of two numbers is not farther than the upper one up to their midpoint. -/
theorem abs_sub_le_abs_sub_upper_iff {lower upper : ℚ} (ordered : lower < upper) :
    |number - lower| ≤ |number - upper| ↔ 2 * number ≤ lower + upper := by
  rw [abs_sub_le_abs_sub_iff, mul_nonneg_iff_of_pos_left (sub_pos.mpr ordered), sub_nonneg]

/-- The upper one of two numbers is not farther than the lower one from their midpoint on. -/
theorem abs_sub_le_abs_sub_lower_iff {lower upper : ℚ} (ordered : lower < upper) :
    |number - upper| ≤ |number - lower| ↔ lower + upper ≤ 2 * number := by
  rw [abs_sub_le_abs_sub_iff, ← neg_mul_neg, neg_sub, neg_sub,
    mul_nonneg_iff_of_pos_left (sub_pos.mpr ordered), sub_nonneg, add_comm]

/-- Two numbers are equally far from their midpoint. -/
theorem abs_sub_eq_abs_sub_iff {lower upper : ℚ} (ordered : lower < upper) :
    |number - lower| = |number - upper| ↔ lower + upper = 2 * number := by
  rw [le_antisymm_iff, abs_sub_le_abs_sub_upper_iff ordered, abs_sub_le_abs_sub_lower_iff ordered,
    and_comm, ← le_antisymm_iff]

/-- One number comes before another. Beside even bits the two may be the same. -/
def Before (bits : Nat) (lower upper : ℚ) : Prop :=
  lower ≤ upper ∧ (lower = upper → bits % 2 = 0)

/-- A number comes before all that are later than one that it comes before. -/
theorem Before.trans_le {lower between upper : ℚ} (before : Before bits lower between)
    (later : between ≤ upper) : Before bits lower upper :=
  ⟨before.1.trans later, fun same => before.2 (le_antisymm before.1 (same ▸ later))⟩

/-- All that are earlier than a number come before what it comes before. -/
theorem Before.of_le {lower between upper : ℚ} (earlier : lower ≤ between)
    (before : Before bits between upper) : Before bits lower upper :=
  ⟨earlier.trans before.1, fun same => before.2 (le_antisymm before.1 (same ▸ earlier))⟩

/-- The numbers that round to a magnitude lie between its midpoints with the two magnitudes beside
it. Those midpoints round to it too if its bits are even. -/
theorem roundsTo_iff : format.RoundsTo number bits ↔
    bits < format.infinity ∧
    (∀ below, below + 1 = bits →
      Before bits (format.magnitude below + format.magnitude bits) (2 * number)) ∧
    Before bits (2 * number) (format.magnitude bits + format.magnitude (bits + 1)) := by
  constructor
  · intro rounds
    refine ⟨rounds.finite, ?low, ?high⟩
    case low =>
      rintro below rfl
      have ordered := format.magnitude_strictMono below.lt_succ_self
      refine ⟨(abs_sub_le_abs_sub_lower_iff ordered).mp (rounds.nearest below), fun halfway => ?_⟩
      exact rounds.even below (Nat.ne_of_lt below.lt_succ_self)
        ((abs_sub_eq_abs_sub_iff ordered).mpr halfway).symm
    case high =>
      have ordered := format.magnitude_strictMono bits.lt_succ_self
      refine ⟨(abs_sub_le_abs_sub_upper_iff ordered).mp (rounds.nearest _), fun halfway => ?_⟩
      exact rounds.even _ (Nat.succ_ne_self bits)
        ((abs_sub_eq_abs_sub_iff ordered).mpr halfway.symm)
  · rintro ⟨finite, low, high⟩
    -- A magnitude on either side is at least as far away as the one beside the bits.
    have lower {other : Nat} (smaller : other < bits) :
        Before bits (format.magnitude other + format.magnitude bits) (2 * number) := by
      obtain ⟨below, rfl⟩ := Nat.exists_eq_add_of_lt smaller
      refine .of_le ?_ (low (other + below) rfl)
      have := format.magnitude_strictMono.monotone (Nat.le_add_right other below)
      linarith
    have upper {other : Nat} (larger : bits < other) :
        Before bits (2 * number) (format.magnitude bits + format.magnitude other) := by
      refine high.trans_le ?_
      have := format.magnitude_strictMono.monotone (Nat.succ_le_of_lt larger)
      linarith
    refine ⟨finite, fun other => ?nearest, fun other distinct tie => ?even⟩
    case nearest =>
      obtain smaller | rfl | larger := Nat.lt_trichotomy other bits
      · exact (abs_sub_le_abs_sub_lower_iff (format.magnitude_strictMono smaller)).mpr
          (lower smaller).1
      · exact le_rfl
      · exact (abs_sub_le_abs_sub_upper_iff (format.magnitude_strictMono larger)).mpr
          (upper larger).1
    case even =>
      obtain smaller | larger := Nat.lt_or_gt_of_ne distinct
      · exact (lower smaller).2
          ((abs_sub_eq_abs_sub_iff (format.magnitude_strictMono smaller)).mp tie.symm)
      · exact (upper larger).2
          ((abs_sub_eq_abs_sub_iff (format.magnitude_strictMono larger)).mp tie).symm

/-- All numbers between two that round to a magnitude round to it. -/
theorem ordConnected_roundsTo (bits : Nat) :
    {number | format.RoundsTo number bits}.OrdConnected := by
  refine ⟨fun first firstRounds last lastRounds number between => ?_⟩
  obtain ⟨finite, low, -⟩ := format.roundsTo_iff.mp firstRounds
  obtain ⟨-, -, high⟩ := format.roundsTo_iff.mp lastRounds
  have := between.1
  have := between.2
  exact format.roundsTo_iff.mpr ⟨finite,
    fun below next => (low below next).trans_le (by linarith), .of_le (by linarith) high⟩

/-- A number rounds to one magnitude at most. -/
theorem RoundsTo.unique {format : BinaryFormat} (rounds : format.RoundsTo number bits)
    (roundsOther : format.RoundsTo number other) : bits = other := by
  by_contra distinct
  have tie := le_antisymm (rounds.nearest other) (roundsOther.nearest bits)
  have even := rounds.even other (Ne.symm distinct) tie
  have evenOther := roundsOther.even bits distinct tie.symm
  -- Both have even bits, so there is a magnitude between them, and it is nearer than both.
  wlog smaller : bits < other generalizing bits other
  · exact this roundsOther rounds (Ne.symm distinct) tie.symm evenOther even (by omega)
  have halfway := (abs_sub_eq_abs_sub_iff (format.magnitude_strictMono smaller)).mp tie
  have inner := format.magnitude_strictMono (show bits + 1 < other by omega)
  have next := (format.roundsTo_iff.mp rounds).2.2.1
  linarith

/-- Zero rounds to no magnitude with bits. -/
theorem not_roundsTo_zero (positive : 0 < bits) : ¬ format.RoundsTo 0 bits := by
  intro rounds
  obtain ⟨below, rfl⟩ := Nat.exists_eq_succ_of_ne_zero positive.ne'
  have low := ((format.roundsTo_iff.mp rounds).2.1 below rfl).1
  have ordered := format.magnitude_strictMono below.lt_succ_self
  have start := format.magnitude_strictMono.monotone (Nat.zero_le below)
  rw [magnitude_zero] at start
  linarith

end BinaryFormat

end Disassembler
