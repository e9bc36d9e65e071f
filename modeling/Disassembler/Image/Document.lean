import Disassembler.Image
import Disassembler.Json.Printer

/-!
# Images as documents

The document of an image has all tables, also the empty ones. The entry of a
type mentions its struct only if it has one.
-/

namespace Disassembler

open Json

/-- A word as a JSON number. -/
def Word.toValue (word : Word) : Value := .integer word.toInt

/-- A record with a single field as a JSON object. -/
def fieldValue (name : String) (value : Value) : Value := .object [(name, value)]

/-- A type entry as a JSON object. -/
def TypeEntry.toValue (entry : TypeEntry) : Value := .object <|
  ("kind", .string entry.kind.name) ::
    entry.struct?.toList.map fun struct => ("struct_idx", struct.toValue)

/-- A line entry as a JSON object. -/
def LineEntry.toValue (entry : LineEntry) : Value := .object
  [("bytecode_start", entry.start.toValue), ("line", entry.line.toValue),
    ("file_idx", entry.file.toValue)]

/-- A table as a JSON array. -/
def tableValue {α : Type} (toValue : α → Value) (table : Array α) : Value :=
  .array (table.toList.map toValue)

/-- An image as a JSON object. -/
def Image.toValue (image : Image) : Value := .object
  [("code", tableValue Word.toValue image.code),
    ("type_table", tableValue TypeEntry.toValue image.types),
    ("line_info", tableValue LineEntry.toValue image.lines),
    ("filenames", tableValue .string image.files),
    ("identifiers", tableValue (fun name => fieldValue "name" (.string name)) image.identifiers),
    ("spec_idents", tableValue (fun place => fieldValue "ident" place.toValue) image.specialised),
    ("functions", tableValue (fun name => fieldValue "name" (.string name)) image.functions),
    ("structs", tableValue (fun name => fieldValue "name" (.string name)) image.structs),
    ("string_table", tableValue .string image.strings)]

end Disassembler
