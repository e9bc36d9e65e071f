import Disassembler.Load.Image
import Disassembler.Proofs.Json.Nesting

/-!
# What is loaded

A load that succeeds is taken apart: a table into its entries, a record into its members or its
items, and a member into the field that it names. Put together this says that each loader looks at
all of its reading, so that nothing is loaded from a reading with damage anywhere in it.
-/

namespace Disassembler.Load

open Json

variable {α : Type}

/-- Items are loaded if the first one is and the others are. -/
theorem items_cons_eq_ok {load : Reading → Except Fault α} {reading : Reading}
    {rest : List Reading} {values : List α} : items load (reading :: rest) = .ok values ↔
      ∃ value others, load reading = .ok value ∧ items load rest = .ok others ∧
        value :: others = values := by
  rw [items]
  cases load reading with
  | error fault => simp
  | ok value => cases items load rest <;> simp

/-- A table is loaded if its items are. -/
theorem table_eq_ok {load : Reading → Except Fault α} {reading : Reading} {entries : Array α} :
    table load reading = .ok entries ↔
      ∃ readings, reading = .array readings ∧ items load readings = .ok entries.toList := by
  constructor
  · intro loaded
    cases reading with
    | array readings =>
      refine ⟨readings, rfl, ?_⟩
      rw [table] at loaded
      cases each : items load readings with
      | error fault => simp [each] at loaded
      | ok values =>
        rw [each] at loaded
        cases loaded
        rfl
    | null | bool _ | number _ | string _ | object _ | damaged => cases loaded
  · rintro ⟨readings, rfl, each⟩
    rw [table, each]
    exact congrArg Except.ok entries.toArray_toList

namespace Record

variable {δ : Type} {record : Record δ α} {draft final : δ}

/-- A member is loaded into its field if that has not come before, and is passed over if it names no
field and has no damage. -/
theorem member_eq_ok {key : Option String} {value : Reading} :
    record.member draft key value = .ok final ↔ ∃ name, key = some name ∧
      ((∃ field, record.fields.find? (·.name == name) = some field ∧ field.given draft = false ∧
          field.load value draft = .ok final) ∨
        record.fields.find? (·.name == name) = none ∧ value.intact = true ∧ draft = final) := by
  cases key with
  | none => simp [member]
  | some name =>
    simp only [member, Option.some.injEq, exists_eq_left']
    cases record.fields.find? (·.name == name) with
    | none => cases value.intact <;> simp
    | some field => cases given : field.given draft <;> simp [given]

/-- Members are loaded if the first one is and the others are behind it. -/
theorem members_cons_eq_ok {member : Option String × Reading}
    {rest : List (Option String × Reading)} :
    record.members draft (member :: rest) = .ok final ↔ ∃ middle,
      record.member draft member.1 member.2 = .ok middle ∧
        record.members middle rest = .ok final := by
  rw [members]
  cases record.member draft member.1 member.2 <;> simp

/-- Items are loaded into fields if the first one is loaded into the first field and the others are
loaded behind it. -/
theorem positions_cons_eq_ok {fields : List (Field δ)} {value : Reading} {rest : List Reading} :
    positions draft fields (value :: rest) = .ok final ↔ ∃ field others middle,
      fields = field :: others ∧ field.load value draft = .ok middle ∧
        positions middle others rest = .ok final := by
  cases fields with
  | nil => simp [positions]
  | cons field others =>
    rw [positions]
    cases loaded : field.load value draft <;> simp [loaded]

/-- A record is loaded from an object if its members are, and make a record. -/
theorem load_object_eq_ok {written : List (Option String × Reading)} {value : α} :
    record.load (.object written) = .ok value ↔ ∃ draft,
      record.members record.start written = .ok draft ∧ record.finish draft = .ok value := by
  rw [load]
  cases record.members record.start written with
  | error fault => simp
  | ok draft => cases made : record.finish draft <;> simp [made]

/-- A record is loaded from an array if its items are loaded into fields that make a record. -/
theorem load_array_eq_ok {written : List Reading} {value : α} :
    record.load (.array written) = .ok value ↔ ∃ draft,
      positions record.start record.fields written = .ok draft ∧
        record.finish draft = .ok value := by
  rw [load]
  cases positions record.start record.fields written with
  | error fault => simp
  | ok draft => cases made : record.finish draft <;> simp [made]

end Record

/-- A loader takes nothing out of a reading with damage in it. -/
def OnlyIntact (load : Reading → Except Fault α) : Prop :=
  ∀ reading value, load reading = .ok value → reading.intact = true

/-- Words come out of numbers. -/
theorem onlyIntact_word : OnlyIntact word := by
  intro reading value loaded
  cases reading with
  | number numeral => rfl
  | null | bool _ | string _ | array _ | object _ | damaged => cases loaded

/-- Strings come out of strings. -/
theorem onlyIntact_string : OnlyIntact string := by
  intro reading value loaded
  cases reading with
  | string text => rfl
  | null | bool _ | number _ | array _ | object _ | damaged => cases loaded

/-- What may be null takes nothing out of damage if it does not where it is not null. -/
theorem OnlyIntact.nullable {load : Reading → Except Fault α} (sound : OnlyIntact load) :
    OnlyIntact (nullable load) := by
  intro reading value loaded
  by_cases null : reading = .null
  · rw [null]
    rfl
  · rw [Load.nullable.eq_2 _ _ null] at loaded
    cases inner : load reading with
    | error fault =>
      rw [inner] at loaded
      cases loaded
    | ok value => exact sound reading value inner

/-- Kinds of values come out of strings, and out of objects with nothing but null in them. -/
theorem onlyIntact_kind : OnlyIntact kind := by
  intro reading value loaded
  cases reading with
  | string text => rfl
  | object members =>
    cases members with
    | nil => cases loaded
    | cons member rest =>
      obtain ⟨key, inner⟩ := member
      rw [kind] at loaded
      cases known : kindName key with
      | error fault => simp [known] at loaded
      | ok kind => cases inner <;> cases rest <;> first | rfl | simp [known] at loaded
  | null | bool _ | number _ | array _ | damaged => cases loaded

/-- Tables take nothing out of damage if their entries do not. -/
theorem OnlyIntact.table {load : Reading → Except Fault α} (sound : OnlyIntact load) :
    OnlyIntact (table load) := by
  intro reading entries loaded
  obtain ⟨readings, rfl, each⟩ := table_eq_ok.mp loaded
  refine Reading.intact_array.mpr ?_
  clear loaded
  generalize entries.toList = values at each
  induction readings generalizing values with
  | nil => exact List.forall_mem_nil _
  | cons reading rest ih =>
    obtain ⟨value, others, first, behind, -⟩ := items_cons_eq_ok.mp each
    exact List.forall_mem_cons.mpr ⟨sound reading value first, ih others behind⟩

/-- A field takes nothing out of a reading with damage in it. -/
def Field.OnlyIntact {δ : Type} (field : Field δ) : Prop :=
  ∀ reading draft final, field.load reading draft = .ok final → reading.intact = true

/-- A field with a value of its own is loaded if the value is. -/
theorem Field.of_load_eq_ok {δ : Type} {name : String} {get : δ → Option α} {set : δ → α → δ}
    {load : Reading → Except Fault α} {reading : Reading} {draft final : δ} :
    (Field.of name get set load).load reading draft = .ok final ↔
      ∃ value, load reading = .ok value ∧ set draft value = final := by
  cases loaded : load reading <;> simp [Field.of, loaded]

/-- A field takes nothing out of damage if its value does not. -/
theorem OnlyIntact.field {δ : Type} {load : Reading → Except Fault α} (sound : OnlyIntact load)
    (name : String) (get : δ → Option α) (set : δ → α → δ) :
    (Field.of name get set load).OnlyIntact := by
  intro reading draft final loaded
  obtain ⟨value, inner, -⟩ := Field.of_load_eq_ok.mp loaded
  exact sound reading value inner

/-- Records take nothing out of damage if their fields do not. -/
theorem onlyIntact_record {δ : Type} {record : Record δ α}
    (each : ∀ field ∈ record.fields, field.OnlyIntact) : OnlyIntact record.load := by
  intro reading value loaded
  cases reading with
  | object written =>
    obtain ⟨draft, taken, -⟩ := Record.load_object_eq_ok.mp loaded
    refine Reading.intact_object.mpr ?_
    clear loaded
    generalize record.start = start at taken
    induction written generalizing start with
    | nil => exact List.forall_mem_nil _
    | cons member rest ih =>
      obtain ⟨middle, first, behind⟩ := Record.members_cons_eq_ok.mp taken
      refine List.forall_mem_cons.mpr ⟨?_, ih middle behind⟩
      obtain ⟨name, -, ⟨field, found, -, inner⟩ | ⟨-, intact, -⟩⟩ := Record.member_eq_ok.mp first
      · exact each field (List.mem_of_find?_eq_some found) _ _ _ inner
      · exact intact
  | array written =>
    obtain ⟨draft, taken, -⟩ := Record.load_array_eq_ok.mp loaded
    refine Reading.intact_array.mpr ?_
    clear loaded
    generalize record.start = start at taken
    generalize record.fields = fields at each taken
    induction written generalizing start fields with
    | nil => exact List.forall_mem_nil _
    | cons item rest ih =>
      obtain ⟨field, others, middle, rfl, inner, behind⟩ := Record.positions_cons_eq_ok.mp taken
      obtain ⟨first, following⟩ := List.forall_mem_cons.mp each
      exact List.forall_mem_cons.mpr ⟨first _ _ _ inner, ih middle others following behind⟩
  | null | bool _ | number _ | string _ | damaged => cases loaded

/-- Records with a single field take nothing out of damage if the field does not. -/
theorem OnlyIntact.single {load : Reading → Except Fault α} (sound : OnlyIntact load)
    (name field : String) : OnlyIntact (singleRecord name field load).load :=
  onlyIntact_record (List.forall_mem_singleton.mpr (sound.field _ _ _))

/-- Type entries take nothing out of damage. -/
theorem onlyIntact_type : OnlyIntact typeRecord.load := by
  refine onlyIntact_record (List.forall_mem_cons.mpr ⟨onlyIntact_kind.field _ _ _, ?_⟩)
  exact List.forall_mem_singleton.mpr (onlyIntact_word.nullable.field _ _ _)

/-- Line entries take nothing out of damage. -/
theorem onlyIntact_line : OnlyIntact lineRecord.load := by
  refine onlyIntact_record (List.forall_mem_cons.mpr ⟨onlyIntact_word.field _ _ _, ?_⟩)
  refine List.forall_mem_cons.mpr ⟨onlyIntact_word.field _ _ _, ?_⟩
  exact List.forall_mem_singleton.mpr (onlyIntact_word.field _ _ _)

/-- Images take nothing out of damage. -/
theorem onlyIntact_image : OnlyIntact imageRecord.load := by
  refine onlyIntact_record ?_
  refine List.forall_mem_cons.mpr ⟨onlyIntact_word.table.field _ _ _, ?_⟩
  refine List.forall_mem_cons.mpr ⟨onlyIntact_type.table.field _ _ _, ?_⟩
  refine List.forall_mem_cons.mpr ⟨onlyIntact_line.table.field _ _ _, ?_⟩
  refine List.forall_mem_cons.mpr ⟨onlyIntact_string.table.field _ _ _, ?_⟩
  refine List.forall_mem_cons.mpr ⟨(onlyIntact_string.single _ _).table.field _ _ _, ?_⟩
  refine List.forall_mem_cons.mpr ⟨(onlyIntact_word.single _ _).table.field _ _ _, ?_⟩
  refine List.forall_mem_cons.mpr ⟨(onlyIntact_string.single _ _).table.field _ _ _, ?_⟩
  refine List.forall_mem_cons.mpr ⟨(onlyIntact_string.single _ _).table.field _ _ _, ?_⟩
  exact List.forall_mem_singleton.mpr (onlyIntact_string.table.field _ _ _)

/-- Records come out of objects and arrays. -/
theorem Record.container_of_load {δ : Type} {record : Record δ α} {reading : Reading} {value : α}
    (loaded : record.load reading = .ok value) :
    (∃ items, reading = .array items) ∨ ∃ members, reading = .object members := by
  cases reading with
  | array items => exact Or.inl ⟨items, rfl⟩
  | object members => exact Or.inr ⟨members, rfl⟩
  | null | bool _ | number _ | string _ | damaged => cases loaded

/-- A document of a reading is loaded as the reading is. -/
theorem whole_of_document {load : Reading → Except Fault α} {reading : Reading}
    {bytes : List UInt8} (document : reading.Document bytes) : whole load bytes = load reading := by
  obtain ⟨holds, -⟩ := Reading.document_iff.mp document
  rw [whole, holds]
  cases loaded : load reading <;> simp [loaded]

/-- A text is loaded if it is the document of a reading that is loaded. -/
theorem whole_eq_ok_iff {load : Reading → Except Fault α} (sound : OnlyIntact load)
    {bytes : List UInt8} {value : α} : whole load bytes = .ok value ↔
      ∃ reading : Reading, reading.Document bytes ∧ load reading = .ok value := by
  constructor
  · intro loaded
    cases holds : Reading.ofBytes bytes with
    | mk reading trailing =>
      rw [whole, holds] at loaded
      cases inner : load reading with
      | error fault => simp [inner] at loaded
      | ok value' =>
        cases trailing with
        | true => simp [inner] at loaded
        | false =>
          simp only [inner, Bool.false_eq_true, ↓reduceIte, Except.ok.injEq] at loaded
          subst loaded
          exact ⟨reading, Reading.document_iff.mpr ⟨holds, sound _ _ inner⟩, inner⟩
  · rintro ⟨reading, document, loaded⟩
    rw [whole_of_document document, loaded]

end Disassembler.Load

namespace Disassembler

open Load

/-- A text is not read to its end as what is asked for. -/
def Unreadable {α : Type} (result : Except LoadError α) : Prop :=
  ∃ fault, result = .error (.unreadable fault)

/-- A text that is read as an image holds an image, also if that is not valid. -/
theorem Image.readable_iff {bytes : List UInt8} :
    ¬ Unreadable (Image.load bytes) ↔ ∃ image, whole imageRecord.load bytes = .ok image := by
  unfold Image.load Unreadable
  cases whole imageRecord.load bytes with
  | error fault => simp
  | ok image => cases verdict : image.check <;> simp [verdict]

/-- A text that is read as the names of native functions holds these names. -/
theorem Natives.readable_iff {bytes : List UInt8} :
    ¬ Unreadable (Natives.load bytes) ↔ ∃ names, whole (table string) bytes = .ok names := by
  unfold Natives.load Unreadable
  cases whole (table string) bytes <;> simp

/-- Texts that hold the same image are loaded alike. -/
theorem Image.load_congr {bytes bytes' : List UInt8}
    (same : whole imageRecord.load bytes = whole imageRecord.load bytes') :
    Image.load bytes = Image.load bytes' := by
  rw [Image.load, Image.load, same]

/-- Texts that hold the same names are loaded alike. -/
theorem Natives.load_congr {bytes bytes' : List UInt8}
    (same : whole (table string) bytes = whole (table string) bytes') :
    Natives.load bytes = Natives.load bytes' := by
  rw [Natives.load, Natives.load, same]

end Disassembler
