import Disassembler.Word

/-!
# Program images

An image holds the instruction stream of a program and the tables that its
operands refer to. Every reference may dangle: a lookup that leaves a table,
or that starts from a negative word, finds nothing.
-/

namespace Disassembler

/-- The kind of values that a type describes. -/
inductive ValueKind where
  | int | float | string | vector | struct | classObject | function | resource | nil | any
  deriving DecidableEq

namespace ValueKind

/-- All kinds of values, in the order in which messages list them. -/
def all : List ValueKind :=
  [.int, .float, .string, .vector, .struct, .classObject, .function, .resource, .nil, .any]

/-- The name of a kind of values in a document. -/
def name : ValueKind → String
  | .int => "int"
  | .float => "float"
  | .string => "string"
  | .vector => "vector"
  | .struct => "struct"
  | .classObject => "class"
  | .function => "function"
  | .resource => "resource"
  | .nil => "nil"
  | .any => "any"

/-- The kind of values with a name. -/
def ofName? (name : String) : Option ValueKind := all.find? (·.name == name)

/-- The name of a kind of values leads back to it. -/
theorem ofName?_name (kind : ValueKind) : ofName? kind.name = some kind := by
  cases kind <;> decide

end ValueKind

/-- An entry of the type table. -/
structure TypeEntry where
  /-- The kind of values of the type. -/
  kind : ValueKind
  /-- The place of the type's struct in the struct table, if it has one. -/
  struct? : Option Word
  deriving DecidableEq

/-- The source line that is active from an offset of the stream on. -/
structure LineEntry where
  /-- The first offset at which the line is active. -/
  start : Word
  /-- The number of the source line. -/
  line : Word
  /-- The place of the line's file in the file table. -/
  file : Word
  deriving DecidableEq

/-- The tables that give operands their names. -/
structure NameTables where
  /-- The types that operands refer to. -/
  types : Array TypeEntry := #[]
  /-- The names of identifiers. -/
  identifiers : Array String := #[]
  /-- For each specialised identifier, the place of its identifier. -/
  specialised : Array Word := #[]
  /-- The names of functions. -/
  functions : Array String := #[]
  /-- The names of structs. -/
  structs : Array String := #[]
  /-- The texts of string operands. -/
  strings : Array String := #[]
  deriving DecidableEq

namespace NameTables

variable (tables : NameTables)

/-- The name of a function. -/
def functionName? (index : Word) : Option String := lookup? tables.functions index

/-- The name of a struct. -/
def structName? (index : Word) : Option String := lookup? tables.structs index

/-- The text of a string operand. -/
def stringText? (index : Word) : Option String := lookup? tables.strings index

/-- The entry of a type. -/
def typeEntry? (index : Word) : Option TypeEntry := lookup? tables.types index

/-- The name of a specialised identifier, found through its identifier. -/
def variableName? (index : Word) : Option String :=
  (lookup? tables.specialised index).bind (lookup? tables.identifiers)

end NameTables

/-- A program: its instruction stream and the tables that belong to it. -/
structure Image extends NameTables where
  /-- The instruction stream. -/
  code : Array Word := #[]
  /-- The source lines, by the offsets at which they start. -/
  lines : Array LineEntry := #[]
  /-- The names of the source files. -/
  files : Array String := #[]
  deriving DecidableEq

namespace Image

/-- The word of the stream at a place. -/
def word? (image : Image) (index : Word) : Option Word := lookup? image.code index

/-- The name of a source file. -/
def fileName? (image : Image) (index : Word) : Option String := lookup? image.files index

end Image

end Disassembler
