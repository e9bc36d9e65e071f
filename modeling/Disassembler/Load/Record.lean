import Disassembler.Load.Fault

/-!
# Records

A record is written as an object, whose members may come in any order and may
include others, or as an array of its fields in their order. Its fields are
collected in a draft. A field may be given once, and the record is made from
the draft when all that is written has been read.
-/

namespace Disassembler.Load

open Json

/-- A field of a record that is collected in drafts of type `δ`. -/
structure Field (δ : Type) where
  /-- The name of the field. -/
  name : String
  /-- Whether a draft has the field. -/
  given : δ → Bool
  /-- Loads the field into a draft. -/
  load : Reading → δ → Except Fault δ

/-- A field that holds a value of its own in the draft. -/
def Field.of {δ α : Type} (name : String) (get : δ → Option α) (set : δ → α → δ)
    (load : Reading → Except Fault α) : Field δ where
  name := name
  given draft := (get draft).isSome
  load reading draft :=
    match load reading with
    | .ok value => .ok (set draft value)
    | .error fault => .error fault

/-- How records of type `α` are written. -/
structure Record (δ α : Type) where
  /-- The name of the record in messages. -/
  name : String
  /-- The fields, in their order. -/
  fields : List (Field δ)
  /-- The draft that has no fields. -/
  start : δ
  /-- The record of a draft, or the first field that it lacks. -/
  finish : δ → Except String α

namespace Record

variable {δ α : Type} (record : Record δ α)

/-- Loads one member into a draft. Members that are no fields only have to be undamaged. -/
def member (draft : δ) (key : Option String) (value : Reading) : Except Fault δ :=
  match key with
  | some name =>
    match record.fields.find? (·.name == name) with
    | some field =>
      if field.given draft then .error (.duplicateField name) else field.load value draft
    | none => if value.intact then .ok draft else .error .syntaxError
  | none => .error .syntaxError

/-- Loads members into a draft, one after the other. -/
def members (draft : δ) : List (Option String × Reading) → Except Fault δ
  | [] => .ok draft
  | (key, value) :: rest =>
    match record.member draft key value with
    | .ok draft => members draft rest
    | .error fault => .error fault

/-- Loads items into a draft, each into the field at its place. -/
def positions (draft : δ) : List (Field δ) → List Reading → Except Fault δ
  | _, [] => .ok draft
  | [], _ :: _ => .error .syntaxError
  | field :: fields, value :: rest =>
    match field.load value draft with
    | .ok draft => positions draft fields rest
    | .error fault => .error fault

/-- Loads a record. -/
def load : Reading → Except Fault α
  | .object written =>
    match record.members record.start written with
    | .error fault => .error fault
    | .ok draft =>
      match record.finish draft with
      | .ok value => .ok value
      | .error missing => .error (.missingField missing)
  | .array written =>
    match positions record.start record.fields written with
    | .error fault => .error fault
    | .ok draft =>
      match record.finish draft with
      | .ok value => .ok value
      | .error _ => .error (.shortRecord written.length record.name record.fields.length)
  | reading => .error (mismatch (.record record.name) reading)

end Record

end Disassembler.Load
