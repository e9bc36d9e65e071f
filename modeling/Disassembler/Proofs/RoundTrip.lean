import Disassembler.Proofs.Load.Record
import Disassembler.Proofs.Validity

/-!
# Loading undoes printing

Whatever an image holds, the document that is printed from it is read as that image, with every
word and every string as it was. What loading comes to then depends on the source lines only, in the
order in which their rules are checked. The names of native functions are read as they were, too.
-/

namespace Disassembler

open Json Load

/-- The bytes of a text as a file holds them. -/
def fileBytes (text : List Char) : List UInt8 := (String.ofList text).toUTF8.toList

/-- The only value of a printed document is loaded as itself. -/
theorem whole_fileBytes {α : Type} {load : Reading → Except Fault α} {toValue : α → Value}
    (undoes : Undoes load toValue) {value : α} {text : List Char}
    (printed : (toValue value).Printed text) : whole load (fileBytes text) = .ok value := by
  unfold whole fileBytes
  rw [toUTF8_ofList, Reading.ofBytes_printed printed]
  simp only [undoes value]
  rfl

/-- The document of an image is read as that image, which is then checked. -/
theorem Image.load_fileBytes {image : Image} {text : List Char}
    (printed : image.toValue.Printed text) :
    Image.load (fileBytes text) = match image.check with
      | .error fault => .error (.invalid fault)
      | .ok () => .ok image := by
  have read := whole_fileBytes image_undoes printed
  cases verdict : image.check <;> simp only [Image.load, read, verdict]

/-- What loading comes to for an image that was read as it was. -/
structure Image.LoadedAs (image : Image) (loaded : Except LoadError Image) : Prop where
  /-- If the source lines start at zero and never descend, the image is loaded. -/
  valid : image.StartsAtZero → LineTable.Ascends image.lines → loaded = .ok image
  /-- If there are no source lines, this is reported. -/
  empty : image.lines = #[] → loaded = .error (.invalid .noLines)
  /-- If the first source line starts elsewhere, its start is reported. -/
  late : ∀ first, image.lines[0]? = some first → first.start ≠ 0 →
    loaded = .error (.invalid (.lateStart first.start))
  /-- If the source lines start at zero and descend, the first one that starts before its
  predecessor is reported. -/
  descends : image.StartsAtZero → ¬ LineTable.Ascends image.lines →
    ∃ place, LineTable.FirstDescent image.lines place ∧
      loaded = .error (.invalid (.descent (place + 1)))

/-- Loading the document of an image comes to the image, or to the first rule that it breaks. -/
theorem Image.loadedAs_fileBytes {image : Image} {text : List Char}
    (printed : image.toValue.Printed text) : image.LoadedAs (Image.load (fileBytes text)) := by
  rw [Image.load_fileBytes printed]
  constructor
  case valid =>
    intro zero ascends
    rw [Image.check_of_ascends zero ascends]
  case empty =>
    intro empty
    rw [Image.check_of_no_lines empty]
  case late =>
    intro first found late
    rw [Image.check_of_late_start found late]
  case descends =>
    intro zero descends
    obtain ⟨place, descent, reported⟩ := Image.check_of_descends zero descends
    exact ⟨place, descent, by rw [reported]⟩

/-- The document of the names of native functions is loaded as these names. -/
theorem Natives.load_fileBytes {names : List String} {text : List Char}
    (printed : (Value.array (names.map .string)).Printed text) :
    Natives.load (fileBytes text) = .ok { names := names.toArray } := by
  have loaded : whole (table string) (fileBytes text) = .ok names.toArray :=
    whole_fileBytes (table_undoes string_undoes) printed
  unfold Natives.load
  rw [loaded]

/-- Loading undoes printing: the document of an image is loaded as the image if its source lines
follow the rules, and otherwise the first rule is reported that they break. The document of a list
of names is loaded as the names in their order. -/
theorem load_of_printed :
    (∀ (image : Image) (text : List Char), image.toValue.Printed text →
      image.LoadedAs (Image.load (fileBytes text))) ∧
    ∀ (names : List String) (text : List Char), (Value.array (names.map .string)).Printed text →
      Natives.load (fileBytes text) = .ok { names := names.toArray } :=
  ⟨fun _ _ printed => Image.loadedAs_fileBytes printed,
    fun _ _ printed => Natives.load_fileBytes printed⟩

/-- An image with extreme words, with strings that have to be escaped and with a struct that only
one of two types has. -/
def Image.awkward : Image where
  code := #[Int32.minValue, 0, Int32.maxValue]
  lines := #[⟨0, -1, 0⟩, ⟨0, 7, -1⟩, ⟨2, 8, 3⟩]
  types := #[⟨.struct, some (-3)⟩, ⟨.classObject, none⟩]
  strings := #["\"\\\n\x01", "é𝄞", ""]

/-- An image whose third source line starts before the second one, and the fourth before both. -/
def Image.descending : Image where
  lines := #[⟨0, 1, 0⟩, ⟨5, 2, 0⟩, ⟨3, 3, 0⟩, ⟨1, 4, 0⟩]

/-- Of these images the first one is loaded and the second one is not, nor are an image without
source lines and one whose first source line starts at four. Names are loaded as they were. -/
theorem load_of_printed_awkward :
    Image.load (fileBytes Image.awkward.toValue.compact) = .ok Image.awkward ∧
      Image.load (fileBytes (Image.descending.toValue.pretty 0)) =
        .error (.invalid (.descent 2)) ∧
      Image.load (fileBytes (Image.toValue {}).compact) = .error (.invalid .noLines) ∧
      Image.load (fileBytes (Image.toValue { lines := #[⟨4, 1, 0⟩] }).compact) =
        .error (.invalid (.lateStart 4)) ∧
      Natives.load (fileBytes (Value.array [.string "a\tb", .string "𝄞"]).compact) =
        .ok { names := #["a\tb", "𝄞"] } := by
  obtain ⟨images, names⟩ := load_of_printed
  refine ⟨?awkward, ?descending, ?empty, ?late, ?names⟩
  case awkward =>
    obtain ⟨zero, ascends⟩ := Image.ascends_of_check (rfl : Image.awkward.check = .ok ())
    exact (images Image.awkward _ (Or.inl rfl)).valid zero ascends
  case descending =>
    have zero : Image.descending.StartsAtZero := ⟨_, rfl, rfl⟩
    have descends : ¬ LineTable.Ascends Image.descending.lines :=
      fun ascends => absurd (ascends 1 2 _ _ (by decide) rfl rfl) (by decide)
    have second : LineTable.FirstDescent Image.descending.lines 1 := by
      refine ⟨⟨_, _, rfl, rfl, by decide⟩, fun earlier before => ?_⟩
      obtain rfl : earlier = 0 := by omega
      exact fun descends => absurd (LineTable.descendsBehind_zero.mp descends) (by decide)
    obtain ⟨place, descent, reported⟩ :=
      (images Image.descending _ (Or.inr rfl)).descends zero descends
    rw [reported, descent.unique second]
  case empty =>
    exact (images {} _ (Or.inl rfl)).empty rfl
  case late =>
    exact (images _ _ (Or.inl rfl)).late ⟨4, 1, 0⟩ rfl (by decide)
  case names =>
    exact names ["a\tb", "𝄞"] _ (Or.inl rfl)

end Disassembler
