/-!
# JSON numbers

A number of a document is kept as its digits. It is whole if it has neither a
fraction nor an exponent and is not a zero with a minus sign, which only a
floating point number can be. As a floating point number it is its leading
digits, as many as 64 bits hold, times a power of ten, where the digits, the
power and the product are each rounded to binary64. If the product is too large
for binary64, the number is out of range.
-/

namespace Disassembler.Json

/-- A number of a document, as it is written. -/
structure Numeral where
  /-- Whether a minus sign is written. -/
  negative : Bool := false
  /-- The digits before the point, the last one first. -/
  whole : List Nat := []
  /-- The digits after the point, the last one first. There are some if a point is written. -/
  fraction : List Nat := []
  /-- Whether the exponent has a minus sign. -/
  negativeExponent : Bool := false
  /-- The digits of the exponent, the last one first. There are some if an exponent is written. -/
  exponent : List Nat := []
  deriving DecidableEq

namespace Numeral

/-- The number that decimal digits stand for, of which the last one comes first. -/
def digitsValue : List Nat → Nat
  | [] => 0
  | digit :: rest => 10 * digitsValue rest + digit

/-- The leading digits of a number, and the power of ten that they count. -/
structure Leading where
  /-- The digits as a whole number. -/
  significand : Nat
  /-- The power of ten. -/
  scale : Int
  /-- Whether a digit was dropped, after which all of them are. -/
  full : Bool

namespace Leading

/-- Takes a digit if it fits into 64 bits with those before it, or else drops it. A digit before the
point that is dropped raises the power of ten, and one after the point that is taken lowers it. -/
def digit (beforePoint : Bool) (digit : Nat) (leading : Leading) : Leading :=
  let extended := 10 * leading.significand + digit
  if leading.full || UInt64.size ≤ extended then
    { leading with full := true, scale := leading.scale + if beforePoint then 1 else 0 }
  else
    { leading with significand := extended, scale := leading.scale - if beforePoint then 0 else 1 }

end Leading

variable (numeral : Numeral)

/-- The power of ten that the written exponent stands for. -/
def exponentValue : Int :=
  let value : Int := digitsValue numeral.exponent
  if numeral.negativeExponent then -value else value

/-- The leading digits of a number. Whether digits still fit is decided anew after the point. -/
def leading : Leading :=
  let whole := numeral.whole.foldr (Leading.digit true) ⟨0, 0, false⟩
  numeral.fraction.foldr (Leading.digit false) { whole with full := false }

/-- A positive number rounded to 53 significant bits, where a half goes to the even neighbour. -/
def roundBinary64 (value : Nat) : Nat :=
  let unit := Nat.pow 2 (value.log2 + 1 - 53)
  let below := value / unit
  let rest := value % unit
  if 2 * rest < unit ∨ (2 * rest = unit ∧ below % 2 = 0) then below * unit else (below + 1) * unit

/-- Whether a number is too large for binary64. -/
def isOutOfRange : Bool :=
  let leading := numeral.leading
  let scale := leading.scale + numeral.exponentValue
  leading.significand != 0 &&
    (decide (309 ≤ scale) ||
      (decide (0 ≤ scale) &&
        decide ((Nat.pow 2 54 - 1) * Nat.pow 2 970 ≤
          roundBinary64 leading.significand * roundBinary64 (Nat.pow 10 scale.toNat))))

/-- The whole number that is written, if it is one. -/
def integer? : Option Int :=
  let value : Int := digitsValue numeral.whole
  if !numeral.fraction.isEmpty || !numeral.exponent.isEmpty then none
  else if numeral.negative then if value = 0 then none else some (-value)
  else some value

/-- The whole number that is written, if it is one of 64 bits: with a sign, or without one. -/
def wideInteger? : Option Int :=
  numeral.integer?.filter fun value => Int64.minValue.toInt ≤ value && value < UInt64.size

end Numeral

end Disassembler.Json
