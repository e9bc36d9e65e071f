import Disassembler.Proofs.Load.Layout
import Mathlib.Logic.Relation

/-!
# Layouts of images

The image that is loaded depends on what its document says only. Blanks, escapes and other ways to
write a token are lost when the text is read. The order of members and members that are no fields
are lost when the records are loaded, wherever they are. A field that is repeated in one of the
records is reported.
-/

namespace Disassembler

namespace Load

/-- The shape of type entries. -/
def Shape.typeEntry : Shape := .record [("kind", .plain), ("struct_idx", .plain)]

/-- The shape of line entries. -/
def Shape.lineEntry : Shape :=
  .record [("bytecode_start", .plain), ("line", .plain), ("file_idx", .plain)]

/-- The shape of records with a single field. -/
def Shape.single (field : String) : Shape := .record [(field, .plain)]

/-- The shape of images. -/
def Shape.image : Shape :=
  .record [
    ("code", .plain),
    ("type_table", .table .typeEntry),
    ("line_info", .table .lineEntry),
    ("filenames", .plain),
    ("identifiers", .table (.single "name")),
    ("spec_idents", .table (.single "ident")),
    ("functions", .table (.single "name")),
    ("structs", .table (.single "name")),
    ("string_table", .plain)]

/-- Type entries are orderly. -/
theorem orderly_type : typeRecord.Orderly where
  gives := by
    simp only [typeRecord, List.forall_mem_cons, List.not_mem_nil, false_implies,
      implies_true, and_true]
    and_intros <;> exact Field.gives_of fun _ _ => rfl
  apart := by
    simp only [typeRecord, List.pairwise_cons, List.forall_mem_cons, List.not_mem_nil,
      false_implies, implies_true, List.Pairwise.nil, and_true]
    exact Field.apart_of (fun _ _ => rfl) (fun _ _ => rfl) fun _ _ _ => rfl

/-- Line entries are orderly. -/
theorem orderly_line : lineRecord.Orderly where
  gives := by
    simp only [lineRecord, List.forall_mem_cons, List.not_mem_nil, false_implies,
      implies_true, and_true]
    and_intros <;> exact Field.gives_of fun _ _ => rfl
  apart := by
    simp only [lineRecord, List.pairwise_cons, List.forall_mem_cons, List.not_mem_nil,
      false_implies, implies_true, List.Pairwise.nil, and_true]
    and_intros <;> exact Field.apart_of (fun _ _ => rfl) (fun _ _ => rfl) fun _ _ _ => rfl

/-- Records with a single field are orderly. -/
theorem orderly_single {α : Type} (name field : String) (load : Json.Reading → Except Fault α) :
    (singleRecord name field load).Orderly where
  gives := List.forall_mem_singleton.mpr (Field.gives_of fun _ _ => rfl)
  apart := List.pairwise_singleton _ _

/-- Images are orderly. -/
theorem orderly_image : imageRecord.Orderly where
  gives := by
    simp only [imageRecord, List.forall_mem_cons, List.not_mem_nil, false_implies,
      implies_true, and_true]
    and_intros <;> exact Field.gives_of fun _ _ => rfl
  apart := by
    simp only [imageRecord, List.pairwise_cons, List.forall_mem_cons, List.not_mem_nil,
      false_implies, implies_true, List.Pairwise.nil, and_true]
    and_intros <;> exact Field.apart_of (fun _ _ => rfl) (fun _ _ => rfl) fun _ _ _ => rfl

variable {change : Change} {fault : Option Fault}

/-- Records with a single field carry changes of their members. -/
theorem carries_single {α : Type} (comesTo : change.ComesTo fault) (name field : String)
    (load : Json.Reading → Except Fault α) :
    Carries change fault (.single field) (singleRecord name field load).load :=
  carries_record comesTo (orderly_single name field load) (.cons (carries_plain _).fits .nil)

/-- Type entries carry changes of their members. -/
theorem carries_type (comesTo : change.ComesTo fault) :
    Carries change fault .typeEntry typeRecord.load :=
  carries_record comesTo orderly_type
    (.cons (carries_plain _).fits (.cons (carries_plain _).fits .nil))

/-- Line entries carry changes of their members. -/
theorem carries_line (comesTo : change.ComesTo fault) :
    Carries change fault .lineEntry lineRecord.load :=
  carries_record comesTo orderly_line
    (.cons (carries_plain _).fits
      (.cons (carries_plain _).fits (.cons (carries_plain _).fits .nil)))

/-- Images carry changes of their members and of those of the records in them. -/
theorem carries_image (comesTo : change.ComesTo fault) :
    Carries change fault .image imageRecord.load := by
  refine carries_record comesTo orderly_image ?_
  refine .cons (carries_plain _).fits ?_
  refine .cons (carries_type comesTo).table.fits ?_
  refine .cons (carries_line comesTo).table.fits ?_
  refine .cons (carries_plain _).fits ?_
  refine .cons (carries_single comesTo _ _ _).table.fits ?_
  refine .cons (carries_single comesTo _ _ _).table.fits ?_
  refine .cons (carries_single comesTo _ _ _).table.fits ?_
  refine .cons (carries_single comesTo _ _ _).table.fits ?_
  exact .cons (carries_plain _).fits .nil

/-- However often an image is rearranged, it is loaded as it was. -/
theorem load_of_rearranged {reading reading' : Json.Reading} {image : Image}
    (rearranged : Relation.ReflTransGen (Edited Rearranged .image) reading reading')
    (loaded : imageRecord.load reading = .ok image) : imageRecord.load reading' = .ok image := by
  induction rearranged with
  | refl => exact loaded
  | tail _ edited ih => exact carries_image rearranged_comesTo _ _ _ edited ih

end Load

open Json Load

/-- A text that is read as an image is the document of a reading. All documents of what is a
rearrangement of that reading are loaded alike, in any number of steps, however they are written and
spaced. All documents in which a field is repeated in one of the records are not read. -/
theorem Image.load_of_layout (bytes : List UInt8) (read : ¬ Unreadable (Image.load bytes)) :
    (∃ reading : Reading, reading.Document bytes) ∧
      ∀ reading : Reading, reading.Document bytes →
        (∀ reading' bytes', Relation.ReflTransGen (Edited Rearranged .image) reading reading' →
          reading'.Document bytes' → Image.load bytes' = Image.load bytes) ∧
        ∀ name reading' bytes', Edited (Repeated name) .image reading reading' →
          reading'.Document bytes' →
          Image.load bytes' = .error (.unreadable (.duplicateField name)) := by
  obtain ⟨image, loaded⟩ := Image.readable_iff.mp read
  obtain ⟨reading, document, inner⟩ := (whole_eq_ok_iff onlyIntact_image).mp loaded
  refine ⟨⟨reading, document⟩, fun reading document => ?_⟩
  rw [whole_of_document document] at loaded
  constructor
  · intro reading' bytes' rearranged document'
    apply Image.load_congr
    rw [whole_of_document document', whole_of_document document,
      load_of_rearranged rearranged loaded, loaded]
  · intro name reading' bytes' repeated document'
    have carried := carries_image (repeated_comesTo name) _ _ _ repeated loaded
    rw [Image.load, whole_of_document document', carried]
    rfl

/-- A text that holds an image with a single source line. -/
def Image.plainText : List Char :=
  "\x7b\"code\":[],\"line_info\":[\x7b\"bytecode_start\":0,\"line\":3\x7d]\x7d".toList

/-- The text with all members in another order, with blanks, with a key that is escaped and with a
member of the source line that is no field. -/
def Image.rewrittenText : List Char :=
  ("\x7b\"line\\u005Finfo\" : [\x7b\"line\":3,\"\":[1e999],\"bytecode_start\":0\x7d],\n" ++
    "\"code\":[]\x7d").toList

/-- The text with the instruction stream once more. -/
def Image.repeatedText : List Char :=
  ("\x7b\"code\":[],\"line_info\":[\x7b\"bytecode_start\":0,\"line\":3\x7d]," ++
    "\"code\":[]\x7d").toList

/-- The rewritten text holds the image that the plain one holds, and the one with a field twice is
not read. -/
theorem Image.load_of_layout_rewritten :
    Image.load (octets Image.plainText) = .ok { lines := #[⟨0, 3, 0⟩] } ∧
      Image.load (octets Image.rewrittenText) = .ok { lines := #[⟨0, 3, 0⟩] } ∧
      Image.load (octets Image.repeatedText) =
        .error (.unreadable (.duplicateField "code")) := by
  let code : Option String × Reading := (some "code", .array [])
  let start : Option String × Reading := (some "bytecode_start", .number { whole := [0] })
  let line : Option String × Reading := (some "line", .number { whole := [3] })
  let other : Option String × Reading :=
    (some "", .array [.number { whole := [1], exponent := [9, 9, 9] }])
  let lines (members : Members) : Option String × Reading :=
    (some "line_info", .array [.object members])
  have plain : (Reading.object [code, lines [start, line]]).Document (octets Image.plainText) :=
    Reading.document_of_tokens rfl (by decide +kernel)
  have loaded : Image.load (octets Image.plainText) = .ok { lines := #[⟨0, 3, 0⟩] } := by
    decide +kernel
  obtain ⟨-, layouts⟩ := Image.load_of_layout (octets Image.plainText)
    (by simp [loaded, Unreadable])
  obtain ⟨rearranged, repeated⟩ := layouts _ plain
  refine ⟨loaded, ?_, ?_⟩
  · rw [← loaded]
    refine rearranged (.object [lines [line, other, start], code]) _ ?_
      (Reading.document_of_tokens rfl (by decide +kernel))
    have swapped : Edited Rearranged .image (.object [code, lines [start, line]])
        (.object [lines [start, line], code]) := .here (.reordered (.swap _ _ _))
    have within (members members' : Members) (changed : Rearranged _ members members') :
        Edited Rearranged .image (.object [lines members, code])
          (.object [lines members', code]) :=
      .member [] [code] rfl (.entry [] [] (.here changed))
    have turned := within [start, line] [line, start] (.reordered (.swap _ _ _))
    have added := within [line, start] [line, other, start]
      (.inserted [line] [start] (by decide) rfl)
    exact ((Relation.ReflTransGen.single swapped).tail turned).tail added
  · refine repeated "code" (.object [code, lines [start, line], code]) _ ?_
      (Reading.document_of_tokens rfl (by decide +kernel))
    exact .here (.again [] [lines [start, line]] [] (by decide))

end Disassembler
