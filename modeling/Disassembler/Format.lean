/-!
# Output formats

The forms in which listings are written, and the names that choose them.
-/

namespace Disassembler

/-- A form in which listings are written. -/
inductive Format where
  /-- One line of text for each instruction. -/
  | text
  /-- One JSON document. -/
  | json
  /-- One JSON document for each instruction. -/
  | jsonLines
  /-- One comma-separated record for each instruction. -/
  | csv
  deriving DecidableEq

namespace Format

/-- All formats, in the order in which they are offered. -/
def all : List Format := [.text, .json, .jsonLines, .csv]

/-- The format of output for which none was chosen. -/
def standard : Format := .text

/-- The name of a format. -/
def name : Format → String
  | .text => "text"
  | .json => "json"
  | .jsonLines => "jsonl"
  | .csv => "csv"

/-- The format with a name, where JSON Lines has a long name too. -/
def ofName? (name : String) : Option Format :=
  if name = "jsonlines" then some .jsonLines else all.find? (·.name == name)

/-- The format with a name in any mixture of cases. Only letters of ASCII have a case here: no other
character has a lower-case form among the letters of the names. -/
def ofNameAnyCase? (name : String) : Option Format := ofName? (name.map Char.toLower)

/-- The text that reports a name without a format. -/
def unknownMessage (name : String) : String := "Unknown output format: " ++ name

end Format

end Disassembler
