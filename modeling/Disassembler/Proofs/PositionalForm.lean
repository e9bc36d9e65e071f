import Disassembler.Proofs.Load.ImageParts
import Disassembler.Proofs.Load.Positions

/-!
# Records as arrays in the texts of images

Each record of an image may be written as an object or as the array of its fields, whatever the
others are written as. Both say the same.
-/

namespace Disassembler

open Json Load

/-- A place in an image at which there is a record. -/
inductive RecordPlace where
  /-- The image itself. -/
  | image
  /-- A type entry. -/
  | typeEntry (index : Nat)
  /-- A line entry. -/
  | lineEntry (index : Nat)
  /-- An identifier. -/
  | identifier (index : Nat)
  /-- A specialised identifier. -/
  | specialised (index : Nat)
  /-- A function. -/
  | function (index : Nat)
  /-- A struct. -/
  | struct (index : Nat)

namespace RecordPlace

/-- The path to a record in the document of an image. -/
def path : RecordPlace → List Step
  | image => []
  | typeEntry index => [.field "type_table" 1, .entry index]
  | lineEntry index => [.field "line_info" 2, .entry index]
  | identifier index => [.field "identifiers" 4, .entry index]
  | specialised index => [.field "spec_idents" 5, .entry index]
  | function index => [.field "functions" 6, .entry index]
  | struct index => [.field "structs" 7, .entry index]

/-- The fields of the record at a place. Tables are empty, files are the first one and structs are
null where they are not given. -/
def forms : RecordPlace → Forms
  | image =>
    ["code", "type_table", "line_info", "filenames", "identifiers", "spec_idents", "functions",
      "structs", "string_table"].map fun name => (name, some (.array []))
  | typeEntry _ => [("kind", none), ("struct_idx", some .null)]
  | lineEntry _ =>
    [("bytecode_start", none), ("line", none), ("file_idx", some (.number { whole := [0] }))]
  | identifier _ | function _ | struct _ => [("name", none)]
  | specialised _ => [("ident", none)]

/-- There is a record at a place in an image. -/
def Present (image : Image) : RecordPlace → Prop
  | .image => True
  | typeEntry index => index < image.types.size
  | lineEntry index => index < image.lines.size
  | identifier index => index < image.identifiers.size
  | specialised index => index < image.specialised.size
  | function index => index < image.functions.size
  | struct index => index < image.structs.size

end RecordPlace

namespace Load

/-- The fields of a type entry are its kind and a struct, which may be null. -/
theorem formedBy_type (index : Nat) :
    typeRecord.FormedBy (RecordPlace.typeEntry index).forms where
  toRegular := regular_type
  each := by
    refine .cons ⟨rfl, fun draft entry made => ?_⟩ (.cons ⟨rfl, fun draft absent => ?_⟩ .nil)
    · have kind := (typeRecord_finish_iff.mp made).1
      exact congrArg Option.isSome kind
    · have unset : draft.struct = none := Field.of_given_eq_false.mp absent
      refine ⟨{ draft with struct := some none }, rfl, ?_⟩
      simp only [typeRecord, unset]
      rfl

/-- The fields of a line entry are its start, its line and a file, which may be the first one. -/
theorem formedBy_line (index : Nat) :
    lineRecord.FormedBy (RecordPlace.lineEntry index).forms where
  toRegular := regular_line
  each := by
    refine .cons ⟨rfl, fun draft entry made => ?_⟩ (.cons ⟨rfl, fun draft entry made => ?_⟩
      (.cons ⟨rfl, fun draft absent => ?_⟩ .nil))
    · have start := (lineRecord_finish_iff.mp made).1
      exact congrArg Option.isSome start
    · have line := (lineRecord_finish_iff.mp made).2.1
      exact congrArg Option.isSome line
    · have unset : draft.file = none := Field.of_given_eq_false.mp absent
      have zero : word (.number { whole := [0] }) = .ok 0 := by decide +kernel
      refine ⟨{ draft with file := some 0 }, ?_, ?_⟩
      · simp only [Field.of, zero]
      · simp only [lineRecord, unset]
        rfl

/-- The field of a record with a single field cannot be left out. -/
theorem formedBy_single {α : Type} (name field : String) (load : Reading → Except Fault α) :
    (singleRecord name field load).FormedBy [(field, none)] where
  toRegular := regular_single name field load
  each := by
    refine .cons ⟨rfl, fun draft value made => ?_⟩ .nil
    cases draft with
    | none => cases made
    | some value => rfl

/-- The fields of an image are its tables, which may be empty. -/
theorem formedBy_image : imageRecord.FormedBy RecordPlace.image.forms where
  toRegular := regular_image
  each := by
    have table {name : String} {α : Type} {get : ImageDraft → Option (Array α)}
        {set : ImageDraft → Array α → ImageDraft} {load : Reading → Except Fault α}
        (empty : ∀ draft, get draft = none → (set draft #[]).image = draft.image) :
        imageRecord.Formed (.of name get set (table load)) (name, some (.array [])) := by
      refine ⟨rfl, fun draft absent => ⟨set draft #[], rfl, ?_⟩⟩
      exact congrArg Except.ok (empty draft (Field.of_given_eq_false.mp absent))
    refine .cons (table fun draft unset => ?_) (.cons (table fun draft unset => ?_)
      (.cons (table fun draft unset => ?_) (.cons (table fun draft unset => ?_)
      (.cons (table fun draft unset => ?_) (.cons (table fun draft unset => ?_)
      (.cons (table fun draft unset => ?_) (.cons (table fun draft unset => ?_)
      (.cons (table fun draft unset => ?_) .nil))))))))
    all_goals simp [ImageDraft.image, unset]

end Load

namespace RecordPlace

/-- At a place a record with given fields is loaded. -/
def Loads (place : RecordPlace) : Prop :=
  ∃ (δ α : Type) (record : Record δ α) (part? : Image → Option α)
    (change : (α → α) → Image → Image),
    Focus place.path imageRecord.load record.load none part? change ∧
      (∀ image, place.Present image → (part? image).isSome) ∧ record.FormedBy place.forms

/-- What is at a place in a table is a record if the place is not behind the end of the table. -/
theorem isSome_entry {α : Type} (table : Image → Array α) (index : Nat) (image : Image)
    (bound : index < (table image).size) : ((table image)[index]?.bind some).isSome := by
  simp [bound]

/-- Records are loaded at all their places. -/
theorem loads (place : RecordPlace) : place.Loads := by
  cases place with
  | image => exact ⟨_, _, _, _, _, focus_here _, fun _ _ => rfl, formedBy_image⟩
  | typeEntry index =>
    exact ⟨_, _, _, _, _, (focus_here _).typeEntry index, isSome_entry (·.types) index,
      formedBy_type index⟩
  | lineEntry index =>
    exact ⟨_, _, _, _, _, (focus_here _).lineEntry index, isSome_entry (·.lines) index,
      formedBy_line index⟩
  | specialised index =>
    exact ⟨_, _, _, _, _, (focus_here _).specialisedEntry index, isSome_entry (·.specialised) index,
      formedBy_single _ _ _⟩
  | identifier index =>
    exact ⟨_, _, _, _, _, (focus_here _).tableEntry rfl (fun image => image.identifiers)
      (fun identifiers image => { image with identifiers }) (fun _ => rfl) (fun _ _ => rfl)
      (fun _ _ _ => rfl) index, isSome_entry (·.identifiers) index, formedBy_single _ _ _⟩
  | function index =>
    exact ⟨_, _, _, _, _, (focus_here _).tableEntry rfl (fun image => image.functions)
      (fun functions image => { image with functions }) (fun _ => rfl) (fun _ _ => rfl)
      (fun _ _ _ => rfl) index, isSome_entry (·.functions) index, formedBy_single _ _ _⟩
  | struct index =>
    exact ⟨_, _, _, _, _, (focus_here _).tableEntry rfl (fun image => image.structs)
      (fun structs image => { image with structs }) (fun _ => rfl) (fun _ _ => rfl)
      (fun _ _ _ => rfl) index, isSome_entry (·.structs) index, formedBy_single _ _ _⟩

variable {place : RecordPlace} {context : Context} {items : List Reading} {image : Image}

/-- If there is a record at a place, an array or an object is written there. -/
theorem exists_leads {reading : Reading} (loaded : imageRecord.load reading = .ok image)
    (present : place.Present image) :
    ∃ context inner, Leads place.path context ∧ context.fill inner = reading ∧
      ((∃ items, inner = .array items) ∨ ∃ members, inner = .object members) := by
  obtain ⟨δ, α, record, part?, change, focus, there, -⟩ := place.loads
  obtain ⟨part, found⟩ := Option.isSome_iff_exists.mp (there image present)
  rcases focus.reaches loaded found with ⟨context, inner, leads, rfl⟩ | spare
  · obtain ⟨_, held, -⟩ := focus.has leads loaded
    exact ⟨context, inner, leads, rfl, Record.container_of_load held⟩
  · cases spare

/-- An image is loaded as it was if one of its records is written as an array. -/
theorem load_of_listed (leads : Leads place.path context) {members : Members}
    (listed : Listed place.forms members items)
    (loaded : imageRecord.load (context.fill (.object members)) = .ok image) :
    imageRecord.load (context.fill (.array items)) = .ok image := by
  obtain ⟨δ, α, record, part?, change, focus, -, formed⟩ := place.loads
  obtain ⟨part, held, -⟩ := focus.has leads loaded
  have object := focus.changes leads loaded (.object members)
  have array := focus.changes leads loaded (.array items)
  rw [held] at object
  rw [formed.load_listed listed held] at array
  rw [array, ← object, loaded]

/-- An image is not loaded if one of its records is written as an array that lacks a field without
a default, or that has too many items. -/
theorem not_load_array (leads : Leads place.path context)
    (wrong : (∃ form ∈ place.forms.drop items.length, form.2 = none) ∨
      place.forms.length < items.length) :
    imageRecord.load (context.fill (.array items)) ≠ .ok image := by
  intro loaded
  obtain ⟨δ, α, record, part?, change, focus, -, formed⟩ := place.loads
  obtain ⟨part, held, -⟩ := focus.has leads loaded
  exact formed.not_load_array wrong part held

end RecordPlace

/-- One of the records of an image is written as an array, and was written as an object before. -/
inductive Positioned : Reading → Reading → Prop where
  /-- The array has the values of the fields of the object. -/
  | array {place : RecordPlace} {context : Context} {members : Members} {items : List Reading} :
      Leads place.path context → Listed place.forms members items →
      Positioned (context.fill (.object members)) (context.fill (.array items))

/-- However many records are written as arrays, an image is loaded as it was. -/
theorem load_of_positioned {reading reading' : Reading} {image : Image}
    (positioned : Relation.ReflTransGen Positioned reading reading')
    (loaded : imageRecord.load reading = .ok image) : imageRecord.load reading' = .ok image := by
  induction positioned with
  | refl => exact loaded
  | tail _ step ih =>
    cases step with
    | array leads listed => exact RecordPlace.load_of_listed leads listed ih

/-- Each record of an image that is read from a text is an object or an array in its document. If
any of the objects are written as the arrays of their fields, the text is loaded as it was. A text
is not read if any of its records is written as an array that stops before a field without a
default, or that has more items than there are fields. -/
theorem Image.load_of_positions :
    (∀ (place : RecordPlace) (image : Image) (bytes : List UInt8), image.ReadFrom bytes →
      place.Present image → ∃ context inner, Leads place.path context ∧
        (context.fill inner).Document bytes ∧
        ((∃ items, inner = .array items) ∨ ∃ members, inner = .object members)) ∧
      (∀ bytes, ¬ Unreadable (Image.load bytes) →
        ∀ reading reading' bytes', reading.Document bytes →
          Relation.ReflTransGen Positioned reading reading' → reading'.Document bytes' →
          Image.load bytes' = Image.load bytes) ∧
      ∀ (place : RecordPlace) (context : Context) (items : List Reading) (bytes : List UInt8)
        (trailing : Bool), Leads place.path context →
        (∃ form ∈ place.forms.drop items.length, form.2 = none) ∨
          place.forms.length < items.length →
        Reading.ofBytes bytes = (context.fill (.array items), trailing) →
        Unreadable (Image.load bytes) := by
  refine ⟨?_, ?_, ?_⟩
  · intro place image bytes read present
    obtain ⟨reading, document, loaded⟩ := (whole_eq_ok_iff onlyIntact_image).mp read
    obtain ⟨context, inner, leads, rfl, container⟩ := RecordPlace.exists_leads loaded present
    exact ⟨context, inner, leads, document, container⟩
  · intro bytes read reading reading' bytes' document positioned document'
    obtain ⟨image, loaded⟩ := Image.readable_iff.mp read
    have inner : imageRecord.load reading = .ok image :=
      (whole_of_document document).symm.trans loaded
    apply Image.load_congr
    rw [whole_of_document document', load_of_positioned positioned inner, loaded]
  · intro place context items bytes trailing leads wrong holds
    by_contra accepted
    obtain ⟨image, loaded⟩ := Image.readable_iff.mp accepted
    rw [whole, holds] at loaded
    cases inner : imageRecord.load (context.fill (.array items)) with
    | error fault => simp [inner] at loaded
    | ok value => exact RecordPlace.not_load_array leads wrong inner

/-- The text of an image with a type and a source line, in which every record is an object. -/
def Image.namedText : List Char :=
  ("\x7b\"line_info\":[\x7b\"line\":3,\"bytecode_start\":0\x7d]," ++
    "\"type_table\":[\x7b\"kind\":\"int\"\x7d]\x7d").toList

/-- The text in which every record is an array. The type has the default of its struct in it, and
the source line and the image end with what is given. -/
def Image.positionalText : List Char :=
  "[[],[[\"int\",null]],[[0,3]]]".toList

/-- The text of an image with a source line, which is written in given characters. -/
def Image.singleLine (line : List Char) : List Char :=
  "\x7b\"line_info\":[".toList ++ line ++ "]\x7d".toList

/-- Objects and arrays are read as the same image. A source line that ends before its line, or has
something behind its file, is not read. -/
theorem Image.load_of_positions_mixed :
    Image.load (octets Image.namedText) =
        .ok { types := #[⟨.int, none⟩], lines := #[⟨0, 3, 0⟩] } ∧
      Image.load (octets Image.positionalText) =
        .ok { types := #[⟨.int, none⟩], lines := #[⟨0, 3, 0⟩] } ∧
      Unreadable (Image.load (octets (Image.singleLine "[0]".toList))) ∧
      Unreadable (Image.load (octets (Image.singleLine "[0,3,0,1]".toList))) := by
  obtain ⟨-, positions, wrong⟩ := Image.load_of_positions
  let digit (value : Nat) : Reading := .number { whole := [value] }
  let kind : Option String × Reading := (some "kind", .string (some "int"))
  let start : Option String × Reading := (some "bytecode_start", digit 0)
  let line : Option String × Reading := (some "line", digit 3)
  let types (entry : Reading) : Option String × Reading := (some "type_table", .array [entry])
  let lines (entry : Reading) : Option String × Reading := (some "line_info", .array [entry])
  have named : (Reading.object [lines (.object [line, start]), types (.object [kind])]).Document
      (octets Image.namedText) := Reading.document_of_tokens rfl (by decide +kernel)
  have loaded : Image.load (octets Image.namedText) =
      .ok { types := #[⟨.int, none⟩], lines := #[⟨0, 3, 0⟩] } := by
    decide +kernel
  refine ⟨loaded, ?positional, ?short, ?long⟩
  case positional =>
    have same := positions (octets Image.namedText) (by simp [loaded, Unreadable])
    rw [← loaded]
    let typeItems : List Reading := [.string (some "int"), .null]
    let lineItems : List Reading := [digit 0, digit 3]
    refine same _ (.array [.array [], .array [.array typeItems], .array [.array lineItems]]) _
      named ?_ (Reading.document_of_tokens rfl (by decide +kernel))
    have ofLine : Listed (RecordPlace.lineEntry 0).forms [line, start] lineItems :=
      .given (by simp [start]) (.given (by simp [line]) (.short (by decide)))
    have ofType : Listed (RecordPlace.typeEntry 0).forms [kind] typeItems :=
      .given (by simp [kind]) (.absent (by decide) (.short (by simp)))
    have ofImage (lineEntry typeEntry : Reading) : Listed RecordPlace.image.forms
        [lines lineEntry, types typeEntry] [.array [], .array [typeEntry], .array [lineEntry]] :=
      .absent (by simp [lines, types]) (.given (by simp [types]) (.given (by simp [lines])
        (.short (by simp [lines, types]))))
    -- The source line is the first to become an array, then the image, and the type is the last.
    have first : Positioned _ (.object [lines (.array lineItems), types (.object [kind])]) :=
      @Positioned.array (.lineEntry 0) _ _ _
        (.member [] [types (.object [kind])] (.entry [] [] .here)) ofLine
    have second : Positioned (.object [lines (.array lineItems), types (.object [kind])])
        (.array [.array [], .array [.object [kind]], .array [.array lineItems]]) :=
      @Positioned.array .image _ _ _ .here (ofImage _ _)
    have third : Positioned (.array [.array [], .array [.object [kind]], .array [.array lineItems]])
        (.array [.array [], .array [.array typeItems], .array [.array lineItems]]) :=
      @Positioned.array (.typeEntry 0) _ _ _
        (.position [.array []] [.array [.array lineItems]] (.entry [] [] .here)) ofType
    exact ((Relation.ReflTransGen.single first).tail second).tail third
  case short =>
    refine wrong (.lineEntry 0) (.member [] (some "line_info") (.item [] .whole []) [])
      [digit 0] _ false (.member [] _ (.entry [] [] .here)) (.inl ?_) ?_
    · exact ⟨("line", none), List.mem_cons_self, rfl⟩
    · exact (Reading.document_iff.mp (Reading.document_of_tokens rfl (by decide +kernel))).1
  case long =>
    refine wrong (.lineEntry 0) (.member [] (some "line_info") (.item [] .whole []) [])
      [digit 0, digit 3, digit 0, digit 1] _ false (.member [] _ (.entry [] [] .here))
      (.inr (by decide)) ?_
    exact (Reading.document_iff.mp (Reading.document_of_tokens rfl (by decide +kernel))).1

end Disassembler
