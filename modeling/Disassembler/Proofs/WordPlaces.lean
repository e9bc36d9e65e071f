import Disassembler.Proofs.Json.NumberPlaces
import Disassembler.Proofs.Load.ImageParts
import Disassembler.Proofs.Load.Words

/-!
# Words in the texts of images

Each word of an image is written as a number at a place in its text. If the number is replaced by
other characters of numbers, however many, the text is read exactly if these are the text of a word,
and then the image has that word at the place and is as it was everywhere else. So no number is
rounded, cut off or given another sign on its way into an image.
-/

namespace Disassembler

open Json Load

/-- A place in an image at which a word stands. -/
inductive WordPlace where
  /-- A place in the instruction stream. -/
  | code (index : Nat)
  /-- The place of the struct in a type entry. -/
  | struct (index : Nat)
  /-- The first offset in a line entry. -/
  | start (index : Nat)
  /-- The line in a line entry. -/
  | line (index : Nat)
  /-- The place of the file in a line entry. -/
  | file (index : Nat)
  /-- An entry of the table of specialised identifiers. -/
  | specialised (index : Nat)
  deriving DecidableEq

namespace WordPlace

/-- The path to a place in the document of an image. -/
def path : WordPlace → List Step
  | code index => [.field "code" 0, .entry index]
  | struct index => [.field "type_table" 1, .entry index, .field "struct_idx" 1]
  | start index => [.field "line_info" 2, .entry index, .field "bytecode_start" 0]
  | line index => [.field "line_info" 2, .entry index, .field "line" 1]
  | file index => [.field "line_info" 2, .entry index, .field "file_idx" 2]
  | specialised index => [.field "spec_idents" 5, .entry index, .field "ident" 0]

/-- The word at a place, if there is one. -/
def word? (image : Image) : WordPlace → Option Word
  | code index => image.code[index]?
  | struct index => image.types[index]?.bind (·.struct?)
  | start index => image.lines[index]?.map (·.start)
  | line index => image.lines[index]?.map (·.line)
  | file index => image.lines[index]?.map (·.file)
  | specialised index => image.specialised[index]?

/-- The word at a place where none is written. -/
def default : WordPlace → Option Word
  | file _ => some 0
  | code _ | struct _ | start _ | line _ | specialised _ => none

/-- The image with another word at a place. -/
def put (word : Word) (image : Image) : WordPlace → Image
  | code index => { image with code := image.code.modify index fun _ => word }
  | struct index =>
    { image with types := image.types.modify index fun entry => { entry with struct? := word } }
  | start index =>
    { image with lines := image.lines.modify index fun entry => { entry with start := word } }
  | line index =>
    { image with lines := image.lines.modify index fun entry => { entry with line := word } }
  | file index =>
    { image with lines := image.lines.modify index fun entry => { entry with file := word } }
  | specialised index => { image with specialised := image.specialised.modify index fun _ => word }

/-- A word that is put at a place where there is one stands there. -/
theorem word?_put {place : WordPlace} {image : Image} {old : Word}
    (found : place.word? image = some old) (word : Word) :
    place.word? (place.put word image) = some word := by
  cases place with
  | code index | specialised index =>
    rw [word?] at found
    simp [word?, put, Array.getElem?_modify, found]
  | struct index =>
    obtain ⟨entry, here, -⟩ := Option.bind_eq_some_iff.mp found
    simp [word?, put, Array.getElem?_modify, here]
  | start index | line index | file index =>
    obtain ⟨entry, here, -⟩ := Option.map_eq_some_iff.mp found
    simp [word?, put, Array.getElem?_modify, here]

/-- A word that is put at a place leaves all other places as they are. -/
theorem word?_put_of_ne {place other : WordPlace} (different : other ≠ place) (word : Word)
    (image : Image) : other.word? (place.put word image) = other.word? image := by
  cases place <;> cases other <;> grind [word?, put]

/-- The word at a place is loaded from a number at the path to it. -/
structure Loads (place : WordPlace) : Prop where
  /-- A number at the path is loaded as the word at the place, and with another number there the
  image is loaded with another word at the place, or the fault of that is reported. -/
  replaces : ∀ {context numeral image}, Leads place.path context →
    imageRecord.load (context.fill (.number numeral)) = .ok image →
    (∃ value, word (.number numeral) = .ok value ∧ place.word? image = some value) ∧
      ∀ numeral', imageRecord.load (context.fill (.number numeral')) =
        (place.put · image) <$> word (.number numeral')
  /-- The path leads to a number where there is a word, unless that is the default. -/
  reaches : ∀ {reading image value}, imageRecord.load reading = .ok image →
    place.word? image = some value →
    (∃ context numeral, Leads place.path context ∧ context.fill (.number numeral) = reading) ∨
      place.default = some value

/-- If a path leads to words, and these are the ones at a place, they are loaded from numbers. -/
theorem loads_of_focus {place : WordPlace} {part? : Image → Option Word}
    {change : (Word → Word) → Image → Image}
    (focus : Focus place.path imageRecord.load word place.default part? change)
    (same : ∀ image, part? image = place.word? image)
    (puts : ∀ value image, change (fun _ => value) image = place.put value image) :
    place.Loads where
  replaces := by
    intro context numeral image leads loaded
    obtain ⟨value, held, found⟩ := focus.has leads loaded
    refine ⟨⟨value, held, by rw [← same, found]⟩, fun numeral' => ?_⟩
    rw [focus.changes leads loaded]
    exact congrArg (· <$> _) (funext fun value => puts value image)
  reaches := by
    intro reading image value loaded found
    rcases focus.reaches loaded ((same image).trans found) with ⟨context, inner, leads, rfl⟩ | spare
    · obtain ⟨_, held, -⟩ := focus.has leads loaded
      obtain ⟨numeral, rfl⟩ := number_of_word held
      exact .inl ⟨context, numeral, leads, rfl⟩
    · exact .inr spare

/-- The struct of a type entry is loaded from a number unless it is null. -/
theorem loads_struct (index : Nat) : (struct index).Loads := by
  have focus := focus_struct.typeEntry index
  have null (numeral : Numeral) :
      nullable word (.number numeral) = some <$> word (.number numeral) := rfl
  have same (image : Image) (value : Word) :
      (image.types[index]?.bind fun entry => some entry.struct?) = some (some value) ↔
        (struct index).word? image = some value := by
    rw [word?]
    cases image.types[index]? <;> simp
  constructor
  case replaces =>
    intro context numeral image leads loaded
    obtain ⟨struct?, held, found⟩ := focus.has leads loaded
    have replaced (numeral' : Numeral) : imageRecord.load (context.fill (.number numeral')) =
        ((struct index).put · image) <$> word (.number numeral') := by
      rw [focus.changes leads loaded, null]
      cases word (.number numeral') <;> rfl
    cases read : word (.number numeral) with
    | error fault => simp [null, read] at held
    | ok value =>
      rw [null, read] at held
      cases held
      exact ⟨⟨value, rfl, (same image value).mp found⟩, replaced⟩
  case reaches =>
    intro reading image value loaded found
    have held := (same image value).mpr found
    rcases focus.reaches loaded held with ⟨context, inner, leads, rfl⟩ | spare
    · obtain ⟨struct?, read, there⟩ := focus.has leads loaded
      cases there.symm.trans held
      obtain ⟨numeral, rfl⟩ := number_of_nullable_word read
      exact .inl ⟨context, numeral, leads, rfl⟩
    · cases spare

/-- Words are loaded from numbers at all places of an image. -/
theorem loads (place : WordPlace) : place.Loads := by
  cases place with
  | code index =>
    exact loads_of_focus (focus_code index) (fun _ => Option.bind_fun_some _) fun _ _ => rfl
  | struct index => exact loads_struct index
  | start index =>
    exact loads_of_focus (focus_start.lineEntry index) (fun _ => Option.map_eq_bind.symm)
      fun _ _ => rfl
  | line index =>
    exact loads_of_focus (focus_line.lineEntry index) (fun _ => Option.map_eq_bind.symm)
      fun _ _ => rfl
  | file index =>
    exact loads_of_focus (focus_file.lineEntry index) (fun _ => Option.map_eq_bind.symm)
      fun _ _ => rfl
  | specialised index =>
    exact loads_of_focus ((focus_single "SpecIdent" "ident" word).specialisedEntry index)
      (fun _ => Option.bind_fun_some _) fun _ _ => rfl

/-- A number is written in a text as the word at a place, between what is before it and what is
behind it. -/
inductive Written (place : WordPlace) (before : List UInt8) (text : List Char)
    (behind : List UInt8) : Prop where
  /-- The text is a document with the number at the place. -/
  | number {context : Context} {numeral : Numeral} : Leads place.path context →
      (context.fill (.number numeral)).intact = true → context.Around before behind →
      numeral.Spelled text → Written place before text behind

end WordPlace

/-- What becomes of an image if other characters of numbers are written as the word at a place: if
they are the text of a word, the image is read with that word there and with the words that it has
everywhere else, and otherwise the text is not read. -/
structure WordPlace.Takes (place : WordPlace) (image : Image) (text : List Char)
    (bytes : List UInt8) : Prop where
  /-- The text of a word is read as the word. -/
  reads : ∀ word, text = (Word.text word).toList → (place.put word image).ReadFrom bytes
  /-- The word stands at the place then. -/
  holds : ∀ word, place.word? (place.put word image) = some word
  /-- All other words are as they were. -/
  keeps : ∀ word other, other ≠ place →
    other.word? (place.put word image) = other.word? image
  /-- Other characters are not read. -/
  refuses : (∀ word, text ≠ (Word.text word).toList) → Unreadable (Image.load bytes)

/-- A number at the path to a place in a document is written in the text of the document. -/
theorem WordPlace.exists_written {place : WordPlace} {context : Context} {numeral : Numeral}
    {bytes : List UInt8} (leads : Leads place.path context)
    (document : (context.fill (.number numeral)).Document bytes) :
    ∃ before text behind, bytes = before ++ octets text ++ behind ∧
      place.Written before text behind := by
  obtain ⟨before, text, behind, rfl, around, spelled⟩ := Context.exists_around document
  exact ⟨before, text, behind, rfl, .number leads document.intact around spelled⟩

/-- Each word of an image that is read from a text is written in it as a number, but the file of a
line entry may be left out if it is the first one. Each number at the path to a word is written in
the text of its document. If other characters of numbers are written in its place, the text is read
exactly if these are the text of a word, as those before were, and then that word alone is another
one. -/
theorem Image.load_of_rewritten_number :
    (∀ (place : WordPlace) (image : Image) (value : Word) (bytes : List UInt8),
      image.ReadFrom bytes → place.word? image = some value → place.default ≠ some value →
      ∃ before text behind, bytes = before ++ octets text ++ behind ∧
        place.Written before text behind) ∧
    (∀ (place : WordPlace) (context : Context) (numeral : Numeral) (bytes : List UInt8),
      Leads place.path context → (context.fill (.number numeral)).Document bytes →
      ∃ before text behind, bytes = before ++ octets text ++ behind ∧
        place.Written before text behind) ∧
    ∀ (place : WordPlace) (before behind : List UInt8) (text : List Char) (image : Image),
      place.Written before text behind → image.ReadFrom (before ++ octets text ++ behind) →
      (∃ word, text = (Word.text word).toList ∧ place.word? image = some word) ∧
      ∀ text', text' ≠ [] → (∀ c ∈ text', c ∈ Numeral.alphabet) →
        place.Takes image text' (before ++ octets text' ++ behind) := by
  refine ⟨?_, fun _ _ _ _ => WordPlace.exists_written, ?_⟩
  · intro place image value bytes read found given
    obtain ⟨reading, document, loaded⟩ := (whole_eq_ok_iff onlyIntact_image).mp read
    rcases place.loads.reaches loaded found with ⟨context, numeral, leads, rfl⟩ | spare
    · exact WordPlace.exists_written leads document
    · exact absurd spare given
  · intro place before behind text image written read
    obtain @⟨context, numeral, leads, intact, around, spelled⟩ := written
    have inside : context ≠ .whole := by
      cases place <;> exact leads.ne_whole
    have loaded : imageRecord.load (context.fill (.number numeral)) = .ok image :=
      (whole_of_document (around.document intact spelled)).symm.trans read
    obtain ⟨⟨old, held, found⟩, replaced⟩ := place.loads.replaces leads loaded
    refine ⟨⟨old, text_of_word spelled held, found⟩, fun text' nonempty known => ?_⟩
    constructor
    case reads =>
      rintro value rfl
      obtain ⟨spelled', held'⟩ := word_of_text value
      have document := around.document (Context.intact_fill intact rfl) spelled'
      rw [Image.ReadFrom, whole_of_document document, replaced, held']
      rfl
    case holds => exact fun value => WordPlace.word?_put found value
    case keeps => exact fun value other different => WordPlace.word?_put_of_ne different value image
    case refuses =>
      intro noWord
      by_contra accepted
      obtain ⟨image', loaded'⟩ := Image.readable_iff.mp accepted
      obtain ⟨reading, document, inner⟩ := (whole_eq_ok_iff onlyIntact_image).mp loaded'
      obtain ⟨numeral', spelled', rfl⟩ :=
        (around.document_iff inside intact nonempty known).mp document
      rw [replaced] at inner
      cases held' : word (.number numeral') with
      | error fault => simp [held'] at inner
      | ok value => exact noWord value (text_of_word spelled' held')

/-- The text of an image with a single word in its stream, which is written in given characters. -/
def Image.singleWord (number : List Char) : List UInt8 :=
  octets "\x7b\"code\":[".toList ++ octets number ++
    octets "],\"line_info\":[[0,3]]\x7d".toList

/-- A five is read as the word five, and with the least word written in its place that is read. A
number with an exponent is not read, although it is a whole one. -/
theorem Image.load_of_rewritten_number_five :
    Image.ReadFrom { code := #[5], lines := #[⟨0, 3, 0⟩] } (Image.singleWord ['5']) ∧
      Image.ReadFrom { code := #[Int32.minValue], lines := #[⟨0, 3, 0⟩] }
        (Image.singleWord "-2147483648".toList) ∧
      Unreadable (Image.load (Image.singleWord ['1', 'e', '3'])) := by
  obtain ⟨-, -, rewritten⟩ := Image.load_of_rewritten_number
  have five : Image.ReadFrom { code := #[5], lines := #[⟨0, 3, 0⟩] } (Image.singleWord ['5']) := by
    unfold Image.ReadFrom
    decide +kernel
  let line : Reading := .array [.number { whole := [0] }, .number { whole := [3] }]
  let context : Context := .member [] (some "code") (.item [] .whole []) [(some "line_info",
    .array [line])]
  have cut {bytes : List UInt8} {tokens : List Token} (same : Token.ofBytes bytes = tokens)
      (sound : .fault ∉ tokens) : Token.Written tokens bytes := by
    rw [← same] at sound ⊢
    exact Token.written_of_ofBytes sound
  have around : context.Around (octets "\x7b\"code\":[".toList)
      (octets "],\"line_info\":[[0,3]]\x7d".toList) :=
    ⟨cut (by decide +kernel) (by decide), cut (by decide +kernel) (by decide)⟩
  have leads : Leads (WordPlace.code 0).path context := .member [] _ (.entry [] [] .here)
  have spelled := (word_of_text 5).1
  have written : (WordPlace.code 0).Written (octets "\x7b\"code\":[".toList) ['5']
      (octets "],\"line_info\":[[0,3]]\x7d".toList) := .number leads rfl around spelled
  obtain ⟨-, takes⟩ := rewritten _ _ _ _ _ written five
  refine ⟨five, ?least, ?exponent⟩
  case least =>
    have least := takes "-2147483648".toList (by decide) (by simp [Numeral.alphabet])
    exact least.reads Int32.minValue rfl
  case exponent =>
    have exponent := takes ['1', 'e', '3'] (by decide) (by simp [Numeral.alphabet])
    refine exponent.refuses fun word same => ?_
    have letter (value : Int) : 'e' ∉ integerCharacters value := by
      have digits (value : Nat) : 'e' ∉ Nat.toDigits 10 value := by
        intro among
        cases Nat.isDigit_of_mem_toDigits (by decide) (by decide) among
      cases value <;> simp [integerCharacters, digits]
    refine letter word.toInt ?_
    rw [← Word.toList_text, ← same]
    decide

end Disassembler
