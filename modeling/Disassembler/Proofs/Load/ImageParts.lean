import Disassembler.Proofs.LayoutIndependence
import Disassembler.Proofs.Load.Places

/-!
# Parts of images

The records of an image are regular. So a path that starts with one of its tables leads to the parts
of that table, and whatever is put there becomes part of the image.
-/

namespace Disassembler

open Json

/-- A text is read as an image, which need not be valid. -/
def Image.ReadFrom (image : Image) (bytes : List UInt8) : Prop :=
  Load.whole Load.imageRecord.load bytes = .ok image

namespace Load

/-- Type entries are regular. -/
theorem regular_type : typeRecord.Regular where
  toOrderly := orderly_type
  named := by decide
  fresh := by simp [typeRecord, Field.of]

/-- Line entries are regular. -/
theorem regular_line : lineRecord.Regular where
  toOrderly := orderly_line
  named := by decide
  fresh := by simp [lineRecord, Field.of]

/-- Records with a single field are regular. -/
theorem regular_single {α : Type} (name field : String) (load : Reading → Except Fault α) :
    (singleRecord name field load).Regular where
  toOrderly := orderly_single name field load
  named := List.nodup_singleton _
  fresh := by simp [singleRecord, Field.of]

/-- Images are regular. -/
theorem regular_image : imageRecord.Regular where
  toOrderly := orderly_image
  named := by decide
  fresh := by simp [imageRecord, Field.of]

variable {α γ : Type} {path : List Step} {load : Reading → Except Fault α}
  {inner : Reading → Except Fault γ} {default : Option γ} {part? : α → Option γ}
  {change : (γ → γ) → α → α}

/-- A path to an entry of a table of an image leads to the parts of the entry. A table that is not
written is empty, so it has no entry there. -/
theorem Focus.tableEntry {name : String} {place : Nat} {get : ImageDraft → Option (Array α)}
    {set : ImageDraft → Array α → ImageDraft}
    (known : imageRecord.fields[place]? = some (.of name get set (table load)))
    (table : Image → Array α) (put : Array α → Image → Image)
    (given : ∀ draft, table draft.image = (get draft).getD #[])
    (holds : ∀ draft value, table (set draft value).image = value)
    (replaces : ∀ draft value value',
      (set draft value').image = put value' (set draft value).image)
    (focus : Focus path load inner default part? change) (index : Nat) :
    Focus (.field name place :: .entry index :: path) imageRecord.load inner default
      (fun image => (table image)[index]?.bind part?)
      fun f image => put ((table image).modify index (change f)) image := by
  refine (focus.entry index).field regular_image known table put ?makes ?spare
  case makes =>
    intro draft value image made
    cases made
    exact ⟨holds draft value, fun value' => congrArg Except.ok (replaces draft value value')⟩
  case spare =>
    intro draft image part unset made held
    cases made
    rw [given, unset] at held
    cases held

/-- A type entry is made from a kind of values and from a struct, if there is one. -/
theorem typeRecord_finish_iff {draft : TypeDraft} {entry : TypeEntry} :
    typeRecord.finish draft = .ok entry ↔
      draft.kind = some entry.kind ∧ draft.struct.join = entry.struct? := by
  obtain ⟨kind, struct?⟩ := entry
  cases given : draft.kind <;> simp [typeRecord, given]

/-- A line entry is made from a start, a line and a file, which is the first one if none is
given. -/
theorem lineRecord_finish_iff {draft : LineDraft} {entry : LineEntry} :
    lineRecord.finish draft = .ok entry ↔
      draft.start = some entry.start ∧ draft.line = some entry.line ∧
        draft.file.getD 0 = entry.file := by
  obtain ⟨start, line, file⟩ := entry
  cases given : draft.start <;> cases given' : draft.line <;> simp [lineRecord, given, given']

/-- The struct of a type entry is what stands in its field. -/
theorem focus_struct : Focus [.field "struct_idx" 1] typeRecord.load (nullable word) (some none)
    (fun entry => some entry.struct?) fun f entry => { entry with struct? := f entry.struct? } := by
  refine (focus_here (nullable word)).field regular_type rfl (fun entry => entry.struct?)
    (fun struct? entry => { entry with struct? }) (fun draft value entry made => ?_)
    fun draft entry part unset made held => ?_
  · obtain ⟨kind, struct⟩ := typeRecord_finish_iff.mp made
    exact ⟨struct.symm, fun value' => typeRecord_finish_iff.mpr ⟨kind, rfl⟩⟩
  · obtain ⟨-, struct⟩ := typeRecord_finish_iff.mp made
    rw [← held, ← struct, unset]
    rfl

/-- The start of a line entry is what stands in its field. -/
theorem focus_start : Focus [.field "bytecode_start" 0] lineRecord.load word none
    (fun entry => some entry.start) fun f entry => { entry with start := f entry.start } := by
  refine (focus_here word).field regular_line rfl (fun entry => entry.start)
    (fun start entry => { entry with start }) (fun draft value entry made => ?_)
    fun draft entry part unset made held => ?_
  · obtain ⟨start, line, file⟩ := lineRecord_finish_iff.mp made
    exact ⟨Option.some.inj start.symm, fun value' => lineRecord_finish_iff.mpr ⟨rfl, line, file⟩⟩
  · cases unset.symm.trans (lineRecord_finish_iff.mp made).1

/-- The line of a line entry is what stands in its field. -/
theorem focus_line : Focus [.field "line" 1] lineRecord.load word none
    (fun entry => some entry.line) fun f entry => { entry with line := f entry.line } := by
  refine (focus_here word).field regular_line rfl (fun entry => entry.line)
    (fun line entry => { entry with line }) (fun draft value entry made => ?_)
    fun draft entry part unset made held => ?_
  · obtain ⟨start, line, file⟩ := lineRecord_finish_iff.mp made
    exact ⟨Option.some.inj line.symm, fun value' => lineRecord_finish_iff.mpr ⟨start, rfl, file⟩⟩
  · cases unset.symm.trans (lineRecord_finish_iff.mp made).2.1

/-- The file of a line entry is what stands in its field. -/
theorem focus_file : Focus [.field "file_idx" 2] lineRecord.load word (some 0)
    (fun entry => some entry.file) fun f entry => { entry with file := f entry.file } := by
  refine (focus_here word).field regular_line rfl (fun entry => entry.file)
    (fun file entry => { entry with file }) (fun draft value entry made => ?_)
    fun draft entry part unset made held => ?_
  · obtain ⟨start, line, file⟩ := lineRecord_finish_iff.mp made
    exact ⟨file.symm, fun value' => lineRecord_finish_iff.mpr ⟨start, line, rfl⟩⟩
  · obtain ⟨-, -, file⟩ := lineRecord_finish_iff.mp made
    rw [← held, ← file, unset]
    rfl

/-- What a record with a single field holds is what stands in the field. -/
theorem focus_single {α : Type} (name field : String) (load : Reading → Except Fault α) :
    Focus [.field field 0] (singleRecord name field load).load load none some fun f => f := by
  refine (focus_here load).field (regular_single name field load) rfl id (fun value _ => value)
    (fun draft value made finished => ?_) fun draft made part unset finished => ?_
  · cases finished
    exact ⟨rfl, fun _ => rfl⟩
  · cases unset
    cases finished

/-- A path to a word of the instruction stream leads to it. -/
theorem focus_code (index : Nat) :
    Focus [.field "code" 0, .entry index] imageRecord.load word none
      (fun image => image.code[index]?.bind some)
      fun f image => { image with code := image.code.modify index f } :=
  (focus_here word).tableEntry rfl (fun image => image.code)
    (fun code image => { image with code }) (fun _ => rfl) (fun _ _ => rfl) (fun _ _ _ => rfl) index

/-- A path to a type entry leads to the parts of the entry. -/
theorem Focus.typeEntry {part? : TypeEntry → Option γ} {change : (γ → γ) → TypeEntry → TypeEntry}
    (focus : Focus path typeRecord.load inner default part? change) (index : Nat) :
    Focus (.field "type_table" 1 :: .entry index :: path) imageRecord.load inner default
      (fun image => image.types[index]?.bind part?)
      fun f image => { image with types := image.types.modify index (change f) } :=
  focus.tableEntry rfl (fun image => image.types) (fun types image => { image with types })
    (fun _ => rfl) (fun _ _ => rfl) (fun _ _ _ => rfl) index

/-- A path to a line entry leads to the parts of the entry. -/
theorem Focus.lineEntry {part? : LineEntry → Option γ} {change : (γ → γ) → LineEntry → LineEntry}
    (focus : Focus path lineRecord.load inner default part? change) (index : Nat) :
    Focus (.field "line_info" 2 :: .entry index :: path) imageRecord.load inner default
      (fun image => image.lines[index]?.bind part?)
      fun f image => { image with lines := image.lines.modify index (change f) } :=
  focus.tableEntry rfl (fun image => image.lines) (fun lines image => { image with lines })
    (fun _ => rfl) (fun _ _ => rfl) (fun _ _ _ => rfl) index

/-- A path to a specialised identifier leads to the parts of its record. -/
theorem Focus.specialisedEntry {part? : Word → Option γ} {change : (γ → γ) → Word → Word}
    (focus : Focus path specialisedRecord.load inner default part? change) (index : Nat) :
    Focus (.field "spec_idents" 5 :: .entry index :: path) imageRecord.load inner default
      (fun image => image.specialised[index]?.bind part?)
      fun f image => { image with specialised := image.specialised.modify index (change f) } :=
  focus.tableEntry rfl (fun image => image.specialised)
    (fun specialised image => { image with specialised }) (fun _ => rfl) (fun _ _ => rfl)
    (fun _ _ _ => rfl) index

end Load

end Disassembler
