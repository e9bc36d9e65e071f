import Disassembler.Text.Hex

/-!
# JSON strings

A string is written between quotation marks. Quotation marks, backslashes and
the characters below the blank are escaped, with a letter where JSON has one
and with four hexadecimal digits otherwise. All other characters stand for
themselves.
-/

namespace Disassembler.Json.Quoted

open Text

/-- How a character is written between the quotation marks. -/
def escape (c : Char) : List Char :=
  if c = '"' then ['\\', '"']
  else if c = '\\' then ['\\', '\\']
  else if c = '\n' then ['\\', 'n']
  else if c = '\r' then ['\\', 'r']
  else if c = '\t' then ['\\', 't']
  else if c = '\x08' then ['\\', 'b']
  else if c = '\x0c' then ['\\', 'f']
  else if c.toNat < 0x20 then
    ['\\', 'u', '0', '0', Hex.lower (c.toNat / 16), Hex.lower (c.toNat % 16)]
  else [c]

/-- The characters of a string in a document. -/
def encode (text : List Char) : List Char := '"' :: (text.flatMap escape ++ ['"'])

end Disassembler.Json.Quoted
