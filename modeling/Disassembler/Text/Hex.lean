/-!
# Hexadecimal digits

The digits of base sixteen, written in either case and read in both.
-/

namespace Disassembler.Text.Hex

/-- The digit for a value below sixteen, in lower case. -/
def lower (value : Nat) : Char := "0123456789abcdef".toList.getD value '0'

/-- The digit for a value below sixteen, in upper case. -/
def upper (value : Nat) : Char := "0123456789ABCDEF".toList.getD value '0'

/-- The value of a digit. -/
def value? (digit : Char) : Option Nat :=
  if '0' ≤ digit ∧ digit ≤ '9' then some (digit.toNat - '0'.toNat)
  else if 'a' ≤ digit ∧ digit ≤ 'f' then some (digit.toNat - 'a'.toNat + 10)
  else if 'A' ≤ digit ∧ digit ≤ 'F' then some (digit.toNat - 'A'.toNat + 10)
  else none

/-- A digit in lower case has the value that it was written for. -/
theorem value?_lower {value : Nat} (small : value < 16) : value? (lower value) = some value :=
  (by decide : ∀ n < 16, value? (lower n) = some n) value small

/-- A digit in upper case has the value that it was written for. -/
theorem value?_upper {value : Nat} (small : value < 16) : value? (upper value) = some value :=
  (by decide : ∀ n < 16, value? (upper n) = some n) value small

end Disassembler.Text.Hex
