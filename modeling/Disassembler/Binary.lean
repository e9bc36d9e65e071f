/-!
# Binary interchange formats

A bit pattern of a binary interchange format holds a sign, a biased exponent
and a fraction, from the highest bit down. It stands for a finite number, for
an infinity or for no number.
-/

namespace Disassembler

/-- The widths of the parts of a bit pattern. -/
structure BinaryFormat where
  /-- The number of bits of the biased exponent. -/
  exponentBits : Nat
  /-- The number of bits of the fraction. -/
  fractionBits : Nat

/-- What a bit pattern stands for. -/
inductive BinaryValue where
  /-- The number `significand * 2 ^ exponent`, where `narrow` says that the next smaller number lies
  half as far away as the next larger one. -/
  | finite (negative : Bool) (significand : Nat) (exponent : Int) (narrow : Bool)
  /-- An infinity. -/
  | infinite (negative : Bool)
  /-- No number. -/
  | nan
  deriving DecidableEq

namespace BinaryFormat

/-- The format of 32 bits. -/
def binary32 : BinaryFormat := ⟨8, 23⟩

/-- The format of 64 bits. -/
def binary64 : BinaryFormat := ⟨11, 52⟩

variable (format : BinaryFormat)

/-- The exponent that the last place of the smallest numbers counts. -/
def leastExponent : Int := 2 - Nat.pow 2 (format.exponentBits - 1) - format.fractionBits

/-- The sign of a bit pattern. -/
def isNegative (pattern : Nat) : Bool :=
  pattern / Nat.pow 2 (format.exponentBits + format.fractionBits) % 2 == 1

/-- The biased exponent of a bit pattern. -/
def biasedExponent (pattern : Nat) : Nat :=
  pattern / Nat.pow 2 format.fractionBits % Nat.pow 2 format.exponentBits

/-- The fraction of a bit pattern. -/
def fraction (pattern : Nat) : Nat := pattern % Nat.pow 2 format.fractionBits

/-- What a bit pattern stands for. -/
def value (pattern : Nat) : BinaryValue :=
  let negative := format.isNegative pattern
  let biased := format.biasedExponent pattern
  let fraction := format.fraction pattern
  if biased = Nat.pow 2 format.exponentBits - 1 then
    if fraction = 0 then .infinite negative else .nan
  else if biased = 0 then .finite negative fraction format.leastExponent false
  else
    .finite negative (Nat.pow 2 format.fractionBits + fraction)
      (format.leastExponent + (biased - 1)) (fraction == 0 && biased != 1)

end BinaryFormat

end Disassembler
