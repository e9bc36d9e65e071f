/-!
# Comma-separated records

A record is a line of fields with commas between them. A field that holds a
comma, a quotation mark, a carriage return or a line feed is written between
quotation marks, and a quotation mark inside it is written twice.
-/

namespace Disassembler.Csv

/-- Whether a character makes quotation marks around its field necessary. -/
def isSpecial (c : Char) : Bool := c == ',' || c == '"' || c == '\r' || c == '\n'

/-- Characters with every quotation mark written twice. -/
def double : List Char → List Char
  | [] => []
  | c :: rest => if c = '"' then '"' :: '"' :: double rest else c :: double rest

/-- The characters of a field. -/
def field (text : List Char) : List Char :=
  if text.any isSpecial then '"' :: (double text ++ ['"']) else text

/-- Fields with commas between them. -/
def fields : List String → List Char
  | [] => []
  | [text] => field text.toList
  | text :: rest => field text.toList ++ ',' :: fields rest

/-- The characters of a record, which a line feed ends. -/
def record (texts : List String) : List Char := fields texts ++ ['\n']

/-- The characters of a table. -/
def table (records : List (List String)) : List Char := records.flatMap record

end Disassembler.Csv
