import Disassembler.Load.Image
import Disassembler.Proofs.Load.Scalar

/-!
# Loading printed records

Each member of a printed record is written once, under the name of a field. So each one is loaded
into its field, and the draft behind all of them is that of the record.
-/

namespace Disassembler.Load

open Json

namespace Record

variable {δ α β : Type} {record : Record δ α}

/-- Printed members are collected in a draft. -/
def Collects (record : Record δ α) (draft : δ) (written : List (String × Value)) (final : δ) :
    Prop :=
  record.members draft (Value.readingMembers written) = .ok final

/-- No members leave the draft as it is. -/
theorem collects_nil (draft : δ) : record.Collects draft [] draft := rfl

/-- A member is collected in the field that it names, if the field has not come before. -/
theorem Collects.cons {name : String} {get : δ → Option β} {set : δ → β → δ}
    {load : Reading → Except Fault β} {draft final : δ} {written : Value} {value : β}
    {rest : List (String × Value)} (loaded : load written.reading = .ok value)
    (found : record.fields.find? (·.name == name) = some (.of name get set load))
    (fresh : get draft = none) (others : record.Collects (set draft value) rest final) :
    record.Collects draft ((name, written) :: rest) final := by
  have absent : Field.given (.of name get set load) draft = false := by
    show (get draft).isSome = false
    rw [fresh]
    rfl
  have taken : Field.load (.of name get set load) written.reading draft =
      .ok (set draft value) := by
    unfold Field.of
    simp only [loaded]
  unfold Collects
  rw [Value.readingMembers, members, member, found]
  simp only [absent, taken, Bool.false_eq_true, ↓reduceIte]
  exact others

/-- A printed record is loaded as what its draft makes. -/
theorem load_of_collects {written : List (String × Value)} {value : α} (final : δ)
    (collects : record.Collects record.start written final)
    (made : record.finish final = .ok value) :
    record.load (Value.object written).reading = .ok value := by
  show record.load (.object (Value.readingMembers written)) = _
  rw [Record.load, collects]
  simp only [made]

end Record

/-- A printed record with a single field is loaded as the value of the field. -/
theorem single_undoes {α : Type} {load : Reading → Except Fault α} {toValue : α → Value}
    (undoes : Undoes load toValue) (name field : String) :
    Undoes (singleRecord name field load).load fun value => fieldValue field (toValue value) := by
  intro value
  have found : (singleRecord name field load).fields.find? (·.name == field) =
      some (.of field id (fun _ value => some value) load) :=
    List.find?_cons_of_pos (beq_self_eq_true field)
  have collects : (singleRecord name field load).Collects none [(field, toValue value)]
      (some value) := .cons (undoes value) found rfl (Record.collects_nil _)
  exact Record.load_of_collects _ collects rfl

/-- A printed line entry is loaded as itself. -/
theorem line_undoes : Undoes lineRecord.load LineEntry.toValue := by
  intro entry
  refine Record.load_of_collects ⟨entry.start, entry.line, entry.file⟩ ?_ rfl
  refine .cons (word_undoes entry.start) rfl rfl ?_
  refine .cons (word_undoes entry.line) rfl rfl ?_
  refine .cons (word_undoes entry.file) rfl rfl ?_
  exact Record.collects_nil _

/-- A printed word is loaded as itself where null might stand. -/
theorem nullable_word (place : Word) : nullable word place.toValue.reading = .ok (some place) := by
  show some <$> word place.toValue.reading = _
  rw [word_undoes]
  rfl

/-- A printed type entry is loaded as itself. -/
theorem type_undoes : Undoes typeRecord.load TypeEntry.toValue := by
  rintro ⟨kind, struct?⟩
  cases struct? with
  | none =>
    refine Record.load_of_collects ⟨some kind, none⟩ ?_ rfl
    refine .cons (kind_undoes kind) rfl rfl ?_
    exact Record.collects_nil _
  | some place =>
    refine Record.load_of_collects ⟨some kind, some place⟩ ?_ rfl
    refine .cons (kind_undoes kind) rfl rfl ?_
    refine .cons (nullable_word place) rfl rfl ?_
    exact Record.collects_nil _

/-- A printed image is loaded as itself. -/
theorem image_undoes : Undoes imageRecord.load Image.toValue := by
  intro image
  refine Record.load_of_collects ⟨image.code, image.types, image.lines, image.files,
    image.identifiers, image.specialised, image.functions, image.structs, image.strings⟩ ?_ rfl
  refine .cons (table_undoes word_undoes image.code) rfl rfl ?_
  refine .cons (table_undoes type_undoes image.types) rfl rfl ?_
  refine .cons (table_undoes line_undoes image.lines) rfl rfl ?_
  refine .cons (table_undoes string_undoes image.files) rfl rfl ?_
  refine .cons (table_undoes (single_undoes string_undoes _ _) image.identifiers) rfl rfl ?_
  refine .cons (table_undoes (single_undoes word_undoes _ _) image.specialised) rfl rfl ?_
  refine .cons (table_undoes (single_undoes string_undoes _ _) image.functions) rfl rfl ?_
  refine .cons (table_undoes (single_undoes string_undoes _ _) image.structs) rfl rfl ?_
  refine .cons (table_undoes string_undoes image.strings) rfl rfl ?_
  exact Record.collects_nil _

end Disassembler.Load
