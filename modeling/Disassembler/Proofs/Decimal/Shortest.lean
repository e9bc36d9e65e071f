import Disassembler.Proofs.Decimal.Interval

/-!
# The coarsest decimal of an interval

The decimals with one exponent are the points of a grid. A grid without a point in an interval is
told by the two points beside the center, since the numbers of an interval have no gaps. So the
decimal that is found is on the coarsest grid. It does not end with a zero, and no decimal with
fewer digits is in the interval: one of those would be too small for the same grid, and then a power
of ten on a coarser grid would lie between the two.
-/

namespace Disassembler

namespace Decimal

/-- The number of a decimal. -/
def value (decimal : Decimal) : ℚ := decimal.digits * 10 ^ decimal.exponent

/-- A decimal is among some numbers, and no decimal on a coarser grid is. -/
structure IsCoarsest (decimal : Decimal) (numbers : Set ℚ) : Prop where
  /-- The decimal is among the numbers. -/
  mem : decimal.value ∈ numbers
  /-- No decimal with a larger exponent is among them. -/
  coarser_notMem : ∀ other : Decimal, decimal.exponent < other.exponent → other.value ∉ numbers

variable {decimal : Decimal} {numbers : Set ℚ}

/-- A power of ten on one grid is one on a finer grid. -/
theorem value_mul_pow {digits level : Nat} {exponent : Int} :
    Decimal.value ⟨digits * 10 ^ level, exponent⟩ = Decimal.value ⟨digits, exponent + level⟩ := by
  unfold value
  rw [zpow_add₀ (by norm_num), zpow_natCast]
  push_cast
  ring

/-- The digits of a coarsest decimal do not end with a zero. -/
theorem IsCoarsest.digits_mod_ten (coarsest : decimal.IsCoarsest numbers) :
    decimal.digits % 10 ≠ 0 := by
  intro zero
  have tens : decimal.digits = decimal.digits / 10 * 10 ^ 1 := by omega
  have same : decimal.value =
      Decimal.value ⟨decimal.digits / 10, decimal.exponent + (1 : Nat)⟩ := by
    rw [← value_mul_pow, ← tens]
  refine coarsest.coarser_notMem ⟨decimal.digits / 10, decimal.exponent + (1 : Nat)⟩ ?_
    (same ▸ coarsest.mem)
  exact Int.lt_succ decimal.exponent

/-- No decimal with fewer digits than a coarsest one is among the numbers. -/
theorem IsCoarsest.digits_lt (coarsest : decimal.IsCoarsest numbers)
    (connected : numbers.OrdConnected) (nonzero : (0 : ℚ) ∉ numbers) {other : Decimal} {count : Nat}
    (short : other.digits < 10 ^ count) (among : other.value ∈ numbers) :
    decimal.digits < 10 ^ count := by
  by_contra long
  have finer : other.exponent ≤ decimal.exponent :=
    not_lt.mp fun larger => coarsest.coarser_notMem other larger among
  cases count with
  | zero =>
    have none : other.digits = 0 := by omega
    exact nonzero (by simpa [value, none] using among)
  | succ count =>
    -- The power of ten with one digit more than the other decimal lies between the two.
    refine coarsest.coarser_notMem ⟨1, decimal.exponent + (count + 1 : Nat)⟩ ?_
      (connected.out among coarsest.mem ⟨?_, ?_⟩)
    · change decimal.exponent < decimal.exponent + _
      omega
    · rw [← value_mul_pow, one_mul]
      unfold value
      have fewer : (other.digits : ℚ) ≤ (10 ^ (count + 1) : Nat) := by exact_mod_cast short.le
      have smaller : (10 : ℚ) ^ other.exponent ≤ 10 ^ decimal.exponent :=
        zpow_le_zpow_right₀ (by norm_num) finer
      exact mul_le_mul fewer smaller (by positivity) (by positivity)
    · rw [← value_mul_pow, one_mul]
      unfold value
      have more : ((10 ^ (count + 1) : Nat) : ℚ) ≤ decimal.digits := by
        exact_mod_cast not_lt.mp long
      exact mul_le_mul_of_nonneg_right more (by positivity)

end Decimal

namespace RoundingInterval

variable {interval : RoundingInterval} {numbers : Set ℚ} {level digits : Nat}

/-- The quarters of a point of a grid. -/
theorem number_point : interval.number (digits * (4 * 10 ^ level)) =
    Decimal.value ⟨digits, interval.base + level⟩ := by
  rw [← Decimal.value_mul_pow]
  unfold number Decimal.value
  push_cast
  ring

/-- A point that is found on a grid is in the interval. -/
theorem contains_of_nearest? (found : interval.nearest? level = some digits) :
    interval.contains (digits * (4 * 10 ^ level)) = true := by
  simp only [nearest?, Nat.pow_eq] at found
  split at found
  · rename_i below above
    split at found <;> cases found
    · exact below
    · exact above
  · rename_i below _
    cases found
    exact below
  · rename_i _ above
    cases found
    exact above
  · cases found

/-- No point is found on a grid exactly if neither point beside the center is in the interval. -/
theorem nearest?_eq_none_iff : interval.nearest? level = none ↔
    interval.contains (interval.center / (4 * 10 ^ level) * (4 * 10 ^ level)) = false ∧
      interval.contains ((interval.center / (4 * 10 ^ level) + 1) * (4 * 10 ^ level)) = false := by
  simp only [nearest?, Nat.pow_eq]
  split
  · rename_i below above
    rw [below, above]
    split <;> simp
  · rename_i below above
    simp [below]
  · rename_i below above
    simp [above]
  · rename_i below above
    simp [below, above]

/-- If no point is found on a grid, none of its points is among the numbers. -/
theorem Covers.notMem_of_nearest? (covers : interval.Covers numbers)
    (missing : interval.nearest? level = none) :
    Decimal.value ⟨digits, interval.base + level⟩ ∉ numbers := by
  intro among
  rw [← number_point] at among
  obtain ⟨below, above⟩ := nearest?_eq_none_iff.mp missing
  rw [← Bool.not_eq_true, covers.contains_iff] at below above
  have positive : 0 < 4 * 10 ^ level := by positivity
  generalize 4 * 10 ^ level = step at among below above positive
  have start : interval.center / step * step ≤ interval.center := Nat.div_mul_le_self _ _
  have stop : interval.center < (interval.center / step + 1) * step :=
    Nat.mul_comm step _ ▸ Nat.lt_mul_div_succ interval.center positive
  have monotone := interval.number_strictMono.monotone
  -- A point of the grid lies on the other side of a point beside the center, or is that point.
  obtain left | right : digits ≤ interval.center / step ∨ interval.center / step + 1 ≤ digits := by
    omega
  · exact below (covers.connected.out among covers.center_mem
      ⟨monotone (Nat.mul_le_mul_right step left), monotone start⟩)
  · exact above (covers.connected.out covers.center_mem among
      ⟨monotone stop.le, monotone (Nat.mul_le_mul_right step right)⟩)

/-- The points of a grid above the top level are not among the numbers. -/
theorem Covers.notMem_of_topLevel_lt (covers : interval.Covers numbers)
    (beyond : interval.topLevel < level) :
    Decimal.value ⟨digits, interval.base + level⟩ ∉ numbers := by
  intro among
  rw [← number_point] at among
  have inside := (covers.contains_iff _).mpr among
  have limited : digits * (4 * 10 ^ level) ≤ interval.high := by
    unfold contains at inside
    split at inside
    · rw [Bool.and_eq_true, decide_eq_true_eq, decide_eq_true_eq] at inside
      exact inside.2
    · rw [Bool.and_eq_true, decide_eq_true_eq, decide_eq_true_eq] at inside
      exact inside.2.le
  have wide : interval.high < 10 ^ level :=
    (Nat.length_toDigits_le_iff (by decide) (by omega)).mp beyond.le
  have none : digits = 0 := by
    by_contra some
    have := Nat.le_mul_of_pos_left (4 * 10 ^ level) (Nat.pos_of_ne_zero some)
    omega
  rw [none, Nat.zero_mul, number_zero] at among
  exact covers.zero_notMem among

/-- The decimal of an interval is the coarsest one of its numbers. -/
theorem Covers.isCoarsest_shortest (covers : interval.Covers numbers) :
    interval.shortest.IsCoarsest numbers := by
  -- It is enough that the grids above that of the decimal have no points.
  have coarsest {found digits : Nat} (here : interval.shortest = ⟨digits, interval.base + found⟩)
      (mem : interval.number (digits * (4 * 10 ^ found)) ∈ numbers)
      (above : ∀ coarser ≤ interval.topLevel, found < coarser →
        interval.nearest? coarser = none) : interval.shortest.IsCoarsest numbers := by
    rw [here]
    refine ⟨number_point ▸ mem, ?_⟩
    rintro ⟨others, exponent⟩ larger
    obtain ⟨level, rfl⟩ := Int.le.dest (show interval.base ≤ exponent by simp at larger; omega)
    have larger : found < level := by simpa using larger
    by_cases beyond : interval.topLevel < level
    · exact covers.notMem_of_topLevel_lt beyond
    · exact covers.notMem_of_nearest? (above level (not_lt.mp beyond) larger)
  obtain ⟨found, -, digits, hit, -, here, above⟩ | ⟨here, above⟩ :=
    interval.coarsest_eq interval.topLevel
  · exact coarsest here ((covers.contains_iff _).mp (contains_of_nearest? hit)) above
  · have base : interval.base = interval.base + (0 : Nat) := (Int.add_zero _).symm
    refine coarsest (base ▸ here : interval.shortest = _) ?_ above
    have whole : interval.center / 4 * (4 * 10 ^ 0) = interval.center := by
      have := covers.center_mod_four
      omega
    rw [whole]
    exact covers.center_mem

end RoundingInterval

end Disassembler
