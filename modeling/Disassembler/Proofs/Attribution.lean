import Disassembler.Load.Image
import Disassembler.Proofs.MachineAgreement
import Disassembler.Proofs.Tiling
import Disassembler.Proofs.Validity

/-!
# Source lines of a listing

A sweep shows each instruction, and its stop, under the source line that is active there. On a valid
image exactly one entry of the line table is active at each offset of the stream, and along a
listing the entries only move forward. A sweep cannot be carried out exactly if it comes to a first
instruction without having any source line.
-/

namespace Disassembler

/-- What a listing says about the source of one of its rows. -/
structure Attribution where
  /-- The offset of the instruction or of the stop. -/
  offset : Nat
  /-- The source line. -/
  line : Word
  /-- The source file, if there is one. -/
  file : Option String

/-- The attributions of the lines of a listing, and then that of its stop. -/
def Listing.attributions (listing : Listing) : List Attribution :=
  listing.lines.map (fun line => ⟨line.offset, line.line, line.file⟩) ++
    listing.stop.toList.map fun stop => ⟨stop.offset, stop.line, stop.file⟩

namespace Image

variable (image : Image) (natives : Natives)

/-- An attribution is made by an entry of the line table: the only one that is active at the
offset. -/
structure Attributes (index : Nat) (attribution : Attribution) : Prop where
  /-- The entry is active. -/
  active : LineTable.Active image.lines attribution.offset index
  /-- No other entry is. -/
  unique : ∀ other, LineTable.Active image.lines attribution.offset other → other = index
  /-- The line is that of the entry. The file is the one that the entry's word is the place of, and
  there is none if that word is no place of the file table. -/
  source : ∃ entry, image.lines[index]? = some entry ∧ attribution.line = entry.line ∧
    ∀ name, attribution.file = some name ↔
      0 ≤ entry.file.toInt ∧ image.files[entry.file.toInt.toNat]? = some name

/-- Each row of a listing is attributed by an entry, and later rows by later entries or by the same
one. -/
structure Attributed (listing : Listing) : Prop where
  /-- Each row has its entry. -/
  entries : ∀ attribution ∈ listing.attributions, ∃ index, image.Attributes index attribution
  /-- The entries never move backward. -/
  forward : listing.attributions.Pairwise fun earlier later => ∀ index index',
    image.Attributes index earlier → image.Attributes index' later → index ≤ index'

/-- The loop of a sweep comes to a state in which it goes on but cannot take its turn. -/
inductive Stuck : SweepState → Prop where
  /-- The turn cannot be taken. -/
  | here {state : SweepState} : image.Running state → image.turn? natives state = none →
      Stuck state
  /-- A later turn cannot be taken. -/
  | later {state following : SweepState} : image.Running state →
      image.turn? natives state = some following → Stuck following → Stuck state

variable {image natives}

/-- A turn cannot be taken only if there are no source lines. -/
theorem turn?_eq_none_iff {state : SweepState} :
    image.turn? natives state = none ↔ image.lines = #[] := by
  unfold turn? LineTable.locate?
  split
  · rename_i sourced
    have lines : image.lines ≠ #[] := by
      intro empty
      rw [empty] at sourced
      exact absurd sourced (Nat.lt_irrefl 0)
    cases Instruction.decode image.code state.offset <;> simp [lines]
  · rename_i unsourced
    have lines : image.lines = #[] := Array.eq_empty_of_size_eq_zero (by omega)
    simp [lines]

/-- A loop that gets stuck has no source lines. -/
theorem Stuck.lines_eq {state : SweepState} (stuck : image.Stuck natives state) :
    image.lines = #[] := by
  induction stuck with
  | here _ missing => exact turn?_eq_none_iff.mp missing
  | later _ _ _ ih => exact ih

/-- The loop of a sweep gets stuck exactly if there is code but no source line. -/
theorem stuck_iff : image.Stuck natives {} ↔ image.lines = #[] ∧ image.code ≠ #[] := by
  constructor
  · intro stuck
    refine ⟨stuck.lines_eq, ?_⟩
    intro empty
    cases stuck with
    | here running | later running =>
      have inside := running.2
      rw [empty] at inside
      exact absurd inside (Nat.not_lt_zero _)
  · rintro ⟨lines, code⟩
    have inside : 0 < image.code.size := Array.size_pos_iff.mpr code
    exact .here ⟨rfl, inside⟩ (turn?_eq_none_iff.mpr lines)

/-- The attribution of an offset, by the entry that the search ends at. -/
def attributionAt (image : Image) (sourced : 0 < image.lines.size) (offset : Nat) :
    Attribution where
  offset := offset
  line := (LineTable.locate image.lines sourced offset).line
  file := image.fileName? (LineTable.locate image.lines sourced offset).file

variable {sourced : 0 < image.lines.size} {instructions : List Instruction} {last : Nat}
  {listing : Listing}

/-- The attributions of a listing are those of the offsets on its path, and of its end if it
stops there. -/
theorem Follows.attributions_eq
    (follows : image.Follows natives sourced instructions last listing) :
    ∃ offsets : List Nat, listing.attributions = offsets.map (image.attributionAt sourced) ∧
      offsets.Sublist (instructions.map Instruction.offset ++ [last]) ∧
      ∀ offset ∈ offsets, offset < image.code.size := by
  have inside : ∀ offset ∈ instructions.map Instruction.offset, offset < image.code.size := by
    intro offset among
    obtain ⟨instruction, listed, rfl⟩ := List.mem_map.mp among
    exact Instruction.lt_size_of_decode (follows.path.decoded instruction listed)
  have lines : listing.lines.map (fun line => ⟨line.offset, line.line, line.file⟩) =
      (instructions.map Instruction.offset).map (image.attributionAt sourced) := by
    rw [follows.lines, List.map_map, List.map_map]
    rfl
  unfold Listing.attributions
  rw [lines]
  cases stopped : listing.stop with
  | none =>
    refine ⟨instructions.map Instruction.offset, ?_, List.sublist_append_left _ _, inside⟩
    exact List.append_nil _
  | some stop =>
    have ends := follows.stop
    rw [stopped] at ends
    obtain ⟨atLast, before, -⟩ := ends.stop_eq
    refine ⟨instructions.map Instruction.offset ++ [last], ?_, List.Sublist.refl _, ?_⟩
    · rw [List.map_append, atLast]
      rfl
    · intro offset among
      obtain among | among := List.mem_append.mp among
      · exact inside offset among
      · rw [List.mem_singleton.mp among]
        exact before

/-- In a valid image the search ends at the entry that attributes an offset of the stream. -/
theorem attributes_of_valid (sourced : 0 < image.lines.size) (zero : image.StartsAtZero)
    (ascends : LineTable.Ascends image.lines) {offset : Nat}
    (small : offset < UInt64.size / 2) :
    image.Attributes (LineTable.place image.lines sourced offset)
      (image.attributionAt sourced offset) := by
  obtain ⟨first, found, start⟩ := zero
  have started : image.lines[0].start.toInt ≤ offset := by
    have same : image.lines[0] = first := Option.some.inj
      ((Array.getElem?_eq_getElem sourced).symm.trans found)
    rw [same, start]
    exact Int.natCast_nonneg offset
  have active := LineTable.place_active sourced small started
  refine ⟨active, fun other active' => active'.index_eq ascends active, ?_⟩
  refine ⟨LineTable.locate image.lines sourced offset, ?_, rfl, ?_⟩
  · exact Array.getElem?_eq_getElem _
  · intro name
    exact lookup?_eq_some_iff

/-- On a valid image a sweep attributes each of its rows. -/
theorem Follows.attributed (follows : image.Follows natives sourced instructions last listing)
    (addressable : Machine.Addressable image.code) (zero : image.StartsAtZero)
    (ascends : LineTable.Ascends image.lines) : image.Attributed listing := by
  obtain ⟨offsets, attributions, among, inside⟩ := follows.attributions_eq
  constructor
  · intro attribution listed
    rw [attributions] at listed
    obtain ⟨offset, member, rfl⟩ := List.mem_map.mp listed
    have small : offset < UInt64.size / 2 := by
      have before := inside offset member
      unfold Machine.Addressable at addressable
      omega
    exact ⟨_, attributes_of_valid sourced zero ascends small⟩
  · rw [attributions, List.pairwise_map]
    apply (follows.path.offsets_pairwise.sublist among).imp
    intro earlier later order index index' attributes attributes'
    have position : (earlier : Int) ≤ later := by omega
    exact attributes.active.index_le ascends attributes'.active position

/-- An image that was loaded from a text is valid. -/
theorem check_of_load {bytes : List UInt8} (loaded : Image.load bytes = .ok image) :
    image.check = .ok () := by
  unfold Image.load at loaded
  split at loaded
  · cases loaded
  · split at loaded
    · cases loaded
    · cases loaded
      assumption

/-- An image that was loaded from a text has source lines. -/
theorem sourced_of_load {bytes : List UInt8} (loaded : Image.load bytes = .ok image) :
    0 < image.lines.size := by
  obtain ⟨⟨first, found, -⟩, -⟩ := ascends_of_check (check_of_load loaded)
  exact (Array.getElem?_eq_some_iff.mp found).1

/-- A sweep over a valid image, such as each image that was loaded from a text, comes to its end,
and shows each instruction and the stop under the one source line that is active there, with its
file. Over any image, a sweep cannot be carried out exactly if there is code but no source line. -/
theorem sweep?_attributed (image : Image) (natives : Natives) :
    (Machine.Addressable image.code →
        image.check = .ok () ∨ (∃ bytes, Image.load bytes = .ok image) →
      ∃ listing, image.sweep? natives = some listing ∧ ¬ image.Stuck natives {} ∧
        image.Attributed listing) ∧
      (image.sweep? natives = none ↔ image.lines = #[] ∧ image.code ≠ #[]) ∧
      (image.Stuck natives {} ↔ image.lines = #[] ∧ image.code ≠ #[]) := by
  refine ⟨?_, image.sweep?_eq_none_iff natives, stuck_iff⟩
  intro addressable accepted
  have valid : image.check = .ok () := by
    obtain valid | ⟨bytes, loaded⟩ := accepted
    · exact valid
    · exact check_of_load loaded
  obtain ⟨zero, ascends⟩ := ascends_of_check valid
  have sourced : 0 < image.lines.size := by
    obtain ⟨first, found, -⟩ := zero
    exact (Array.getElem?_eq_some_iff.mp found).1
  obtain ⟨instructions, last, listing, follows⟩ := image.exists_follows natives sourced
  refine ⟨listing, follows.sweep?_eq, ?_, follows.attributed addressable zero ascends⟩
  intro stuck
  rw [(stuck_iff.mp stuck).1] at sourced
  exact absurd sourced (Nat.lt_irrefl 0)

/-- The sample with two source lines that start at its call, where the later one has no file. -/
def twiceSourced : Image :=
  { sample with lines := #[⟨0, 1, 0⟩, ⟨6, 2, 0⟩, ⟨6, 3, -1⟩], files := #["a"] }

/-- The rows of an image with two source lines that start at the same offset have one entry each. -/
theorem sweep?_attributed_twiceSourced :
    Machine.Addressable twiceSourced.code ∧ twiceSourced.check = .ok () ∧
      ∃ listing, twiceSourced.sweep? {} = some listing ∧ ¬ twiceSourced.Stuck {} {} ∧
        twiceSourced.Attributed listing := by
  have addressable : Machine.Addressable twiceSourced.code := by
    unfold Machine.Addressable
    decide
  have valid : twiceSourced.check = .ok () := rfl
  exact ⟨addressable, valid, (sweep?_attributed twiceSourced {}).1 addressable (Or.inl valid)⟩

end Image

end Disassembler
