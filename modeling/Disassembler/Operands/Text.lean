import Disassembler.Decimal.Shortest
import Disassembler.Image
import Disassembler.Natives
import Disassembler.Operands
import Disassembler.Text.Quoted

/-!
# Text of operands

Operands are shown with the names that the tables of the image give them. An
operand without a name is shown as a question mark and its word.
-/

namespace Disassembler

/-- A name, or for an index without one a question mark and the index. -/
def nameOr (name : Option String) (index : Word) : String :=
  match name with
  | some name => name
  | none => "?" ++ index.text

namespace NameTables

variable (tables : NameTables)

/-- The shown name of a function. -/
def showFunction (index : Word) : String := nameOr (tables.functionName? index) index

/-- The shown name of a specialised identifier. -/
def showVariable (index : Word) : String := nameOr (tables.variableName? index) index

/-- The shown names of specialised identifiers, each with a blank after it. -/
def showVariables (indices : List Word) : String :=
  String.join (indices.map fun index => tables.showVariable index ++ " ")

/-- The shown name of the struct that a type belongs to. -/
def showStructOfType (index : Word) : String :=
  match (tables.typeEntry? index).bind (·.struct?) with
  | some struct => nameOr (tables.structName? struct) struct
  | none => "?" ++ index.text

/-- The shown text of a string operand. -/
def showString (index : Word) : String :=
  nameOr ((tables.stringText? index).map Text.Quoted.quote) index

/-- The signature of a function: its name, then its parameters, results and owned variables. -/
def showHeader (header : FunctionHeader) : String :=
  (if header.function.toInt < 0 then "__dummy" else tables.showFunction header.function) ++
    "(" ++ tables.showVariables header.parameters ++
    "=> " ++ tables.showVariables header.results ++
    "[" ++ header.keep.text ++ "]" ++ tables.showVariables header.owned ++ ")"

end NameTables

namespace Operands

/-- The signed 64-bit integer of two words, the low half first. -/
def signedPair (low high : Word) : Int := (Word.pairBits low high : Int).bmod UInt64.size

/-- The text of operands, which is empty for an instruction without any. -/
def text (tables : NameTables) (natives : Natives) : Operands → String
  | .none => ""
  | .int value => value.text
  | .int64 low high => toString (signedPair low high)
  | .float64 low high => BinaryFormat.binary64.text (Word.pairBits low high)
  | .float32 pattern => BinaryFormat.binary32.text pattern.bits
  | .intPair first second => first.text ++ " " ++ second.text
  | .returnSite function => tables.showFunction function
  | .callSite callee target =>
    callee.arguments.text ++ " " ++ tables.showFunction callee.function ++ " " ++ target.text
  | .newVector elements => "vector " ++ elements.text
  | .newStruct type => tables.showStructOfType type
  | .native number => nameOr (natives.name? number) number
  | .variable index => tables.showVariable index
  | .string index => tables.showString index
  | .functionHeader header => tables.showHeader header
  | .coroutine number slots =>
    number.text ++ String.join (slots.map fun slot => " v" ++ slot.text)
  | .dispatchHeader function cases arguments =>
    tables.showFunction function ++ " (multi_start) " ++ cases.text ++ " " ++ arguments.text

end Operands

end Disassembler
