import Disassembler.Binary
import Disassembler.Decimal

/-!
# Shortest decimal text of a binary number

All the real numbers of an interval round to a given binary number. Among the
grids of the multiples of a power of ten, the coarsest with a point in that
interval is taken, and on it the point nearest to the number; of two that are
equally near, the larger. No decimal number with fewer digits rounds to it.
-/

namespace Disassembler

/-- The interval that rounds to a positive binary number, in quarters of `10 ^ base`. -/
structure RoundingInterval where
  /-- The power of ten whose quarters are counted. -/
  base : Int
  /-- The binary number itself. -/
  center : Nat
  /-- The lower end. -/
  low : Nat
  /-- The upper end. -/
  high : Nat
  /-- Whether the ends round to the number too. -/
  closed : Bool

namespace RoundingInterval

/-- The interval that rounds to `significand * 2 ^ exponent`. A number halfway between two others
rounds to the one with the even significand, so the ends belong to an even one. -/
def ofBinary (significand : Nat) (exponent : Int) (narrow : Bool) : RoundingInterval :=
  let scale := if exponent < 0 then Nat.pow 5 (-exponent).toNat else Nat.pow 2 exponent.toNat
  { base := min exponent 0
    center := 4 * significand * scale
    low := (4 * significand - if narrow then 1 else 2) * scale
    high := (4 * significand + 2) * scale
    closed := significand % 2 == 0 }

variable (interval : RoundingInterval)

/-- Whether a number of quarters rounds to the binary number. -/
def contains (quarters : Nat) : Bool :=
  if interval.closed then interval.low ≤ quarters && quarters ≤ interval.high
  else interval.low < quarters && quarters < interval.high

/-- The point of the grid of multiples of `10 ^ (base + level)` that is nearest to the binary number
among those that round to it. -/
def nearest? (level : Nat) : Option Nat :=
  let step := 4 * Nat.pow 10 level
  let below := interval.center / step
  match interval.contains (below * step), interval.contains ((below + 1) * step) with
  | true, true =>
    if interval.center - below * step < (below + 1) * step - interval.center then some below
    else some (below + 1)
  | true, false => some below
  | false, true => some (below + 1)
  | false, false => none

/-- The nearest point of the coarsest grid, up to a level, that has one. The grid of level zero
holds the binary number itself. -/
def coarsest : Nat → Decimal
  | 0 => ⟨interval.center / 4, interval.base⟩
  | level + 1 =>
    match interval.nearest? (level + 1) with
    | some digits => ⟨digits, interval.base + (level + 1)⟩
    | none => coarsest level

/-- A level whose grid has no positive point below the upper end. -/
def topLevel : Nat := (Nat.toDigits 10 interval.high).length

/-- The shortest decimal number of an interval. -/
def shortest : Decimal := interval.coarsest interval.topLevel

/-- The coarsest grid with a point in the interval gives the number, and without one the grid of
level zero does. -/
theorem coarsest_eq (level : Nat) :
    (∃ found ≤ level, ∃ digits, interval.nearest? found = some digits ∧ 0 < found ∧
      interval.coarsest level = ⟨digits, interval.base + found⟩ ∧
      ∀ coarser ≤ level, found < coarser → interval.nearest? coarser = none) ∨
    (interval.coarsest level = ⟨interval.center / 4, interval.base⟩ ∧
      ∀ coarser ≤ level, 0 < coarser → interval.nearest? coarser = none) := by
  induction level with
  | zero => exact .inr ⟨rfl, fun coarser small positive => by omega⟩
  | succ level ih =>
    cases hit : interval.nearest? (level + 1) with
    | some digits =>
      refine .inl ⟨level + 1, Nat.le_refl _, digits, hit, by omega, ?_, ?_⟩
      · simp [coarsest, hit]
      · intro coarser small larger
        omega
    | none =>
      have step : interval.coarsest (level + 1) = interval.coarsest level := by
        simp [coarsest, hit]
      have extend {bound : Nat} (below : ∀ coarser ≤ level, bound < coarser →
          interval.nearest? coarser = none) :
          ∀ coarser ≤ level + 1, bound < coarser → interval.nearest? coarser = none := by
        intro coarser small larger
        rcases Nat.lt_or_eq_of_le small with inner | rfl
        · exact below coarser (by omega) larger
        · exact hit
      rcases ih with ⟨found, small, digits, here, positive, value, above⟩ | ⟨value, above⟩
      · exact .inl ⟨found, by omega, digits, here, positive, step ▸ value, extend above⟩
      · exact .inr ⟨step ▸ value, extend above⟩

end RoundingInterval

namespace BinaryFormat

/-- The text of a number without its sign. -/
def magnitudeText (significand : Nat) (exponent : Int) (narrow : Bool) : List Char :=
  if significand = 0 then ['0']
  else (RoundingInterval.ofBinary significand exponent narrow).shortest.plain

/-- The characters of a bit pattern's number: the shortest decimal digits that round to it, without
an exponent. -/
def characters (format : BinaryFormat) (pattern : Nat) : List Char :=
  match format.value pattern with
  | .finite negative significand exponent narrow =>
    (if negative then ['-'] else []) ++ magnitudeText significand exponent narrow
  | .infinite negative => (if negative then ['-'] else []) ++ "inf".toList
  | .nan => "NaN".toList

/-- The text of a bit pattern's number. -/
def text (format : BinaryFormat) (pattern : Nat) : String :=
  String.ofList (format.characters pattern)

end BinaryFormat

end Disassembler
