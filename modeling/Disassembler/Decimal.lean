/-!
# Decimal numbers

A decimal number is a whole number of units of a power of ten. Its plain text
writes all its places and no exponent.
-/

namespace Disassembler

/-- The number `digits * 10 ^ exponent`. -/
structure Decimal where
  /-- The digits of the number, read as a whole number. -/
  digits : Nat
  /-- The power of ten that the last digit counts. -/
  exponent : Int
  deriving DecidableEq

namespace Decimal

/-- A text of zeros. -/
def zeros (count : Nat) : List Char := List.replicate count '0'

/-- Digits with a point before the last `places` of them, and at least one digit before it. -/
def withPoint (digits : List Char) (places : Nat) : List Char :=
  let padded := zeros (places + 1 - digits.length) ++ digits
  padded.take (padded.length - places) ++ '.' :: padded.drop (padded.length - places)

/-- The characters of a number without an exponent. -/
def plain (number : Decimal) : List Char :=
  let digits := Nat.toDigits 10 number.digits
  if 0 ≤ number.exponent then digits ++ zeros number.exponent.toNat
  else withPoint digits (-number.exponent).toNat

end Decimal

end Disassembler
