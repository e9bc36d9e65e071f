import Disassembler.Image.Validity
import Disassembler.Load.Record
import Disassembler.Load.Scalar
import Disassembler.Natives

/-!
# Loading images

The document of an image is a record of tables. A table that is not written is
empty. After the document there may be blanks only; an image that was read to
the end is checked last.
-/

namespace Disassembler.Load

open Json

/-- The fields of a type entry that have been read. -/
structure TypeDraft where
  /-- The kind of values. -/
  kind : Option ValueKind := none
  /-- The place of the struct, which may be written as null. -/
  struct : Option (Option Word) := none

/-- How the entries of the type table are written. -/
def typeRecord : Record TypeDraft TypeEntry where
  name := "TypeDescriptor"
  fields := [
    .of "kind" (·.kind) (fun draft value => { draft with kind := some value }) kind,
    .of "struct_idx" (·.struct) (fun draft value => { draft with struct := some value })
      (nullable word)]
  start := {}
  finish draft :=
    match draft.kind with
    | some kind => .ok { kind, struct? := draft.struct.join }
    | none => .error "kind"

/-- The fields of a line entry that have been read. -/
structure LineDraft where
  /-- The first offset. -/
  start : Option Word := none
  /-- The line. -/
  line : Option Word := none
  /-- The place of the file. -/
  file : Option Word := none

/-- How the entries of the line table are written. The first file is meant if none is written. -/
def lineRecord : Record LineDraft LineEntry where
  name := "LineEntry"
  fields := [
    .of "bytecode_start" (·.start) (fun draft value => { draft with start := some value }) word,
    .of "line" (·.line) (fun draft value => { draft with line := some value }) word,
    .of "file_idx" (·.file) (fun draft value => { draft with file := some value }) word]
  start := {}
  finish draft :=
    match draft.start, draft.line with
    | some start, some line => .ok { start, line, file := draft.file.getD 0 }
    | none, _ => .error "bytecode_start"
    | some _, none => .error "line"

/-- How a record with a single field is written. -/
def singleRecord {α : Type} (name field : String) (load : Reading → Except Fault α) :
    Record (Option α) α where
  name := name
  fields := [.of field id (fun _ value => some value) load]
  start := none
  finish draft :=
    match draft with
    | some value => .ok value
    | none => .error field

/-- How identifiers are written. -/
def identifierRecord : Record (Option String) String := singleRecord "Identifier" "name" string

/-- How specialised identifiers are written. -/
def specialisedRecord : Record (Option Word) Word := singleRecord "SpecIdent" "ident" word

/-- How functions and structs are written. -/
def namedRecord : Record (Option String) String := singleRecord "NamedEntry" "name" string

/-- The tables of an image that have been read. -/
structure ImageDraft where
  /-- The instruction stream. -/
  code : Option (Array Word) := none
  /-- The types. -/
  types : Option (Array TypeEntry) := none
  /-- The source lines. -/
  lines : Option (Array LineEntry) := none
  /-- The source files. -/
  files : Option (Array String) := none
  /-- The identifiers. -/
  identifiers : Option (Array String) := none
  /-- The specialised identifiers. -/
  specialised : Option (Array Word) := none
  /-- The functions. -/
  functions : Option (Array String) := none
  /-- The structs. -/
  structs : Option (Array String) := none
  /-- The texts of string operands. -/
  strings : Option (Array String) := none

/-- The image of the tables that have been read. -/
def ImageDraft.image (draft : ImageDraft) : Image where
  code := draft.code.getD #[]
  types := draft.types.getD #[]
  lines := draft.lines.getD #[]
  files := draft.files.getD #[]
  identifiers := draft.identifiers.getD #[]
  specialised := draft.specialised.getD #[]
  functions := draft.functions.getD #[]
  structs := draft.structs.getD #[]
  strings := draft.strings.getD #[]

/-- How images are written. -/
def imageRecord : Record ImageDraft Image where
  name := "ProgramImage"
  fields := [
    .of "code" (·.code) (fun draft value => { draft with code := some value }) (table word),
    .of "type_table" (·.types) (fun draft value => { draft with types := some value })
      (table typeRecord.load),
    .of "line_info" (·.lines) (fun draft value => { draft with lines := some value })
      (table lineRecord.load),
    .of "filenames" (·.files) (fun draft value => { draft with files := some value })
      (table string),
    .of "identifiers" (·.identifiers) (fun draft value => { draft with identifiers := some value })
      (table identifierRecord.load),
    .of "spec_idents" (·.specialised) (fun draft value => { draft with specialised := some value })
      (table specialisedRecord.load),
    .of "functions" (·.functions) (fun draft value => { draft with functions := some value })
      (table namedRecord.load),
    .of "structs" (·.structs) (fun draft value => { draft with structs := some value })
      (table namedRecord.load),
    .of "string_table" (·.strings) (fun draft value => { draft with strings := some value })
      (table string)]
  start := {}
  finish draft := .ok draft.image

/-- Loads the only value of a text. -/
def whole {α : Type} (load : Reading → Except Fault α) (bytes : List UInt8) : Except Fault α :=
  let (root, trailing) := Reading.ofBytes bytes
  match load root with
  | .error fault => .error fault
  | .ok value => if trailing then .error .syntaxError else .ok value

end Disassembler.Load

namespace Disassembler

/-- Why a text could not be loaded as an image. -/
inductive LoadError where
  /-- The text holds no image. -/
  | unreadable (fault : Load.Fault)
  /-- The text holds an image that is not valid. -/
  | invalid (fault : ImageFault)
  deriving DecidableEq

/-- The text that reports an error. -/
def LoadError.message : LoadError → String
  | .unreadable fault => "Failed to parse program image: " ++ fault.message
  | .invalid fault => "Invalid program image: " ++ fault.message

/-- Loads a valid image from a text. -/
def Image.load (bytes : List UInt8) : Except LoadError Image :=
  match Load.whole Load.imageRecord.load bytes with
  | .error fault => .error (.unreadable fault)
  | .ok image =>
    match image.check with
    | .error fault => .error (.invalid fault)
    | .ok () => .ok image

/-- Loads the names of native functions from a text. -/
def Natives.load (bytes : List UInt8) : Except LoadError Natives :=
  match Load.whole (Load.table Load.string) bytes with
  | .error fault => .error (.unreadable fault)
  | .ok names => .ok { names }

end Disassembler
