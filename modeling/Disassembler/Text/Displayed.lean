import Disassembler.Text.Hex
import Disassembler.Text.Visible

/-!
# Displayed strings

A message shows a string between quotation marks. Quotation marks, backslashes
and all characters that are not visible are escaped; the latter with a letter
where there is one and otherwise with the fewest hexadecimal digits in braces.
-/

namespace Disassembler.Text.Displayed

/-- How a character is shown between the quotation marks. -/
def escape (c : Char) : List Char :=
  if c = '"' then ['\\', '"']
  else if c = '\\' then ['\\', '\\']
  else if c = '\n' then ['\\', 'n']
  else if c = '\r' then ['\\', 'r']
  else if c = '\t' then ['\\', 't']
  else if c = '\x00' then ['\\', '0']
  else if isVisible c then [c]
  else '\\' :: 'u' :: '\x7b' :: (Nat.toDigits 16 c.toNat ++ ['\x7d'])

/-- A string as a message shows it. -/
def display (text : String) : String :=
  String.ofList ('"' :: (text.toList.flatMap escape ++ ['"']))

end Disassembler.Text.Displayed
