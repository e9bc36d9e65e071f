import Disassembler.Proofs.Json.Joining
import Disassembler.Proofs.Load.Success

/-!
# Damaged texts

The document of an image or of the names of native functions ends with a bracket or a brace. So
nothing but blanks may follow it, and a document that lacks its last bytes is none: it would be a
document with something behind it otherwise.
-/

namespace Disassembler

open Json Load

/-- A text tells by itself where it ends: blanks around it make no difference, with more behind it
it is not read, and no part of it is read that ends earlier. -/
structure SelfDelimiting {α : Type} (load : List UInt8 → Except LoadError α) (bytes : List UInt8) :
    Prop where
  /-- Blanks before the text and behind it make no difference. -/
  padded : ∀ before behind, (∀ byte ∈ before, byte ∈ Token.blanks) →
    (∀ byte ∈ behind, byte ∈ Token.blanks) → load (before ++ bytes ++ behind) = load bytes
  /-- With anything but blanks behind it the text is not read. -/
  followed : ∀ behind, (∃ byte ∈ behind, byte ∉ Token.blanks) →
    Unreadable (load (bytes ++ behind))
  /-- No part of the text is read that ends before its last byte, if that is no blank. -/
  cut : (∀ last, bytes.getLast? = some last → last ∉ Token.blanks) →
    ∀ front, front <+: bytes → front ≠ bytes → Unreadable (load front)

section

variable {α β : Type} {load : Reading → Except Fault α} {file : List UInt8 → Except LoadError β}
  {bytes behind : List UInt8}

/-- With anything but blanks behind it the document of an array or an object is not loaded. -/
theorem whole_followed (sound : OnlyIntact load)
    (container : ∀ reading value, load reading = .ok value →
      (∃ items, reading = .array items) ∨ ∃ members, reading = .object members)
    {value : α} (loaded : whole load bytes = .ok value)
    (more : ∃ byte ∈ behind, byte ∉ Token.blanks) :
    whole load (bytes ++ behind) = .error .syntaxError := by
  obtain ⟨reading, document, inner⟩ := (whole_eq_ok_iff sound).mp loaded
  rw [whole, document.followed (container reading value inner) more]
  simp [inner]

/-- Texts are self-delimiting where arrays or objects without damage are loaded from them. -/
theorem selfDelimiting (sound : OnlyIntact load)
    (container : ∀ reading value, load reading = .ok value →
      (∃ items, reading = .array items) ∨ ∃ members, reading = .object members)
    (readable : ∀ bytes, ¬ Unreadable (file bytes) ↔ ∃ value, whole load bytes = .ok value)
    (congr : ∀ bytes bytes', whole load bytes = whole load bytes' → file bytes = file bytes')
    (read : ¬ Unreadable (file bytes)) : SelfDelimiting file bytes := by
  have followed (bytes behind : List UInt8) (read : ¬ Unreadable (file bytes))
      (more : ∃ byte ∈ behind, byte ∉ Token.blanks) : Unreadable (file (bytes ++ behind)) := by
    obtain ⟨value, loaded⟩ := (readable bytes).mp read
    by_contra accepted
    obtain ⟨value', loaded'⟩ := (readable _).mp accepted
    rw [whole_followed sound container loaded more] at loaded'
    cases loaded'
  obtain ⟨value, loaded⟩ := (readable bytes).mp read
  obtain ⟨reading, document, inner⟩ := (whole_eq_ok_iff sound).mp loaded
  constructor
  case padded =>
    intro before behind blankBefore blankBehind
    apply congr
    rw [whole_of_document (document.padded blankBefore blankBehind), whole_of_document document]
  case followed => exact fun behind more => followed bytes behind read more
  case cut =>
    rintro noBlank front ⟨rest, rfl⟩ proper
    -- If the front were read, the rest behind it would keep the whole text from being read.
    by_contra accepted
    refine read (followed front rest accepted ?_)
    have nonempty : rest ≠ [] := fun none => proper (by rw [none, List.append_nil])
    refine ⟨rest.getLast nonempty, List.getLast_mem nonempty, noBlank _ ?_⟩
    rw [List.getLast?_append, List.getLast?_eq_some_getLast nonempty]
    rfl

end

/-- The texts of images and those of the names of native functions are self-delimiting, also those
of images that are not valid. -/
theorem load_selfDelimiting :
    (∀ bytes, ¬ Unreadable (Image.load bytes) → SelfDelimiting Image.load bytes) ∧
      ∀ bytes, ¬ Unreadable (Natives.load bytes) → SelfDelimiting Natives.load bytes := by
  constructor
  · intro bytes read
    exact selfDelimiting onlyIntact_image (fun _ _ loaded => Record.container_of_load loaded)
      (fun _ => Image.readable_iff) (fun _ _ same => Image.load_congr same) read
  · intro bytes read
    refine selfDelimiting onlyIntact_string.table (fun _ _ loaded => ?_)
      (fun _ => Natives.readable_iff) (fun _ _ same => Natives.load_congr same) read
    obtain ⟨readings, array, -⟩ := table_eq_ok.mp loaded
    exact Or.inl ⟨readings, array⟩

/-- The image without tables is not valid, with blanks around it too. It is not read any more if
it lacks its brace or has another one. The list of a name is not read without its bracket. -/
theorem load_selfDelimiting_short :
    Image.load (octets ['{', '}']) = .error (.invalid .noLines) ∧
      Image.load (octets ['\n', '{', '}', ' ']) = .error (.invalid .noLines) ∧
      Unreadable (Image.load (octets ['{', '}', '}'])) ∧
      Unreadable (Image.load (octets ['{'])) ∧
      Natives.load (octets ['[', '"', 'a', '"', ']']) = .ok { names := #["a"] } ∧
      Unreadable (Natives.load (octets ['[', '"', 'a', '"'])) := by
  obtain ⟨images, names⟩ := load_selfDelimiting
  have invalid : Image.load (octets ['{', '}']) = .error (.invalid .noLines) := rfl
  have named : Natives.load (octets ['[', '"', 'a', '"', ']']) = .ok { names := #["a"] } := rfl
  have image := images (octets ['{', '}']) (by simp [invalid, Unreadable])
  have name := names (octets ['[', '"', 'a', '"', ']']) (by simp [named, Unreadable])
  refine ⟨invalid, ?padded, ?followed, ?cut, named, ?cutName⟩
  case padded =>
    rw [← invalid]
    exact image.padded (octets ['\n']) (octets [' ']) (by decide +kernel) (by decide +kernel)
  case followed => exact image.followed (octets ['}']) (by decide +kernel)
  case cut => exact image.cut (by decide +kernel) (octets ['{']) (by decide) (by decide)
  case cutName =>
    exact name.cut (by decide +kernel) (octets ['[', '"', 'a', '"']) (by decide) (by decide)

end Disassembler
