import Disassembler.Text.Hex

/-!
# Quoted strings

A string operand is written between quotation marks. A quotation mark, a
backslash and the control characters of ASCII are escaped, so that the text
stays on one line and ends at the first quotation mark that no backslash
guards. Every other character stands for itself.
-/

namespace Disassembler.Text.Quoted

/-- Whether a character is one of the control characters of ASCII. -/
def isControl (c : Char) : Bool := c.toNat < 0x20 || c.toNat == 0x7f

/-- How a character is written between the quotation marks. -/
def escape (c : Char) : List Char :=
  if c = '"' then ['\\', '"']
  else if c = '\\' then ['\\', '\\']
  else if c = '\n' then ['\\', 'n']
  else if c = '\t' then ['\\', 't']
  else if c = '\r' then ['\\', 'r']
  else if isControl c then
    ['\\', 'x', Hex.upper (c.toNat / 16), Hex.upper (c.toNat % 16)]
  else [c]

/-- The characters of a quoted string. -/
def encode (text : List Char) : List Char := '"' :: (text.flatMap escape ++ ['"'])

/-- A string between quotation marks. -/
def quote (text : String) : String := String.ofList (encode text.toList)

/-- No hexadecimal digit is a control character. -/
theorem isControl_upper (value : Nat) : isControl (Hex.upper value) = false := by
  by_cases small : value < 16
  · exact (by decide : ∀ n < 16, isControl (Hex.upper n) = false) value small
  · have zero : Hex.upper value = '0' := by
      unfold Hex.upper
      rw [List.getD_eq_getElem?_getD, List.getElem?_eq_none (by simpa using small)]
      rfl
    rw [zero]
    decide

/-- What is written for a character holds no control character. -/
theorem isControl_eq_false_of_mem_escape {c written : Char} (member : written ∈ escape c) :
    isControl written = false := by
  unfold escape at member
  repeat' split at member
  all_goals simp only [List.mem_cons, List.not_mem_nil, or_false] at member
  case isFalse.isFalse.isFalse.isFalse.isFalse.isFalse plain =>
    subst member
    simpa using plain
  case isFalse.isFalse.isFalse.isFalse.isFalse.isTrue =>
    rcases member with rfl | rfl | rfl | rfl
    · decide
    · decide
    · exact isControl_upper _
    · exact isControl_upper _
  all_goals rcases member with rfl | rfl <;> decide

end Disassembler.Text.Quoted
