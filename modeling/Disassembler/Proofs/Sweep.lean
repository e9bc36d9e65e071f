import Disassembler.Proofs.Path
import Disassembler.Sweep

/-!
# What a sweep lists

A sweep lists the instructions of the path that it follows, and then what it lists from the end of
the path on. Behind a fault it lists nothing. So the listing of an image is given by one path, and
by what the stream holds at its end.
-/

namespace Disassembler

namespace Image

variable (image : Image) (natives : Natives) (sourced : 0 < image.lines.size)

/-- An instruction as it is listed under the source line at its offset. -/
def listedAt (instruction : Instruction) : Line :=
  image.listed natives (LineTable.locate image.lines sourced instruction.offset) instruction

/-- The stop at an offset, with the source line there. -/
def stopAt (offset : Nat) (fault : DecodeFault) : Stop where
  offset := offset
  line := (LineTable.locate image.lines sourced offset).line
  file := image.fileName? (LineTable.locate image.lines sourced offset).file
  fault := fault

/-- What ends a sweep at an offset: nothing at the end of the stream, or else the fault there. -/
inductive EndsWith : Nat → Option Stop → Prop where
  /-- The stream ends. -/
  | complete : EndsWith image.code.size none
  /-- An instruction cannot be decoded. -/
  | stopped {offset : Nat} {fault : DecodeFault} : offset < image.code.size →
      Instruction.decode image.code offset = .error fault →
      EndsWith offset (some (image.stopAt sourced offset fault))

/-- A listing is that of the instructions of a path from the start of the stream, and of what ends
the sweep at its end. -/
structure Follows (instructions : List Instruction) (last : Nat) (listing : Listing) : Prop where
  /-- The instructions are a path. -/
  path : Path image.code 0 instructions last
  /-- The lines are those of the instructions. -/
  lines : listing.lines = instructions.map (image.listedAt natives sourced)
  /-- The stop, if there is one, is that at the end of the path. -/
  stop : image.EndsWith sourced last listing.stop

variable {image}

/-- A sweep lists nothing behind the stream. -/
theorem sweepFrom_of_size_le {offset : Nat} (outside : image.code.size ≤ offset) :
    image.sweepFrom natives sourced offset = {} := by
  unfold sweepFrom
  rw [dif_neg (by omega)]

/-- A sweep stops at a fault in the stream. -/
theorem sweepFrom_of_fault {offset : Nat} {fault : DecodeFault} (inside : offset < image.code.size)
    (failed : Instruction.decode image.code offset = .error fault) :
    image.sweepFrom natives sourced offset =
      { stop := some (image.stopAt sourced offset fault) } := by
  unfold sweepFrom
  rw [dif_pos inside]
  split
  · rename_i decoded
    rw [failed] at decoded
    cases decoded
  · rename_i failed'
    rw [failed] at failed'
    cases failed'
    rfl

/-- A sweep lists an instruction before those that start where it ends. -/
theorem sweepFrom_of_decode {offset : Nat} {instruction : Instruction}
    (decoded : Instruction.decode image.code offset = .ok instruction) :
    image.sweepFrom natives sourced offset =
      { image.sweepFrom natives sourced instruction.next with
        lines := image.listedAt natives sourced instruction ::
          (image.sweepFrom natives sourced instruction.next).lines } := by
  have inside := Instruction.lt_size_of_decode decoded
  obtain rfl := Instruction.offset_of_decode decoded
  rw [sweepFrom, dif_pos inside]
  split
  · rename_i decoded'
    rw [decoded] at decoded'
    cases decoded'
    rfl
  · rename_i failed
    rw [decoded] at failed
    cases failed

/-- A sweep lists the instructions of a path before those from the end of the path on. -/
theorem sweepFrom_of_path {first last : Nat} {instructions : List Instruction}
    (path : Path image.code first instructions last) :
    image.sweepFrom natives sourced first =
      { image.sweepFrom natives sourced last with
        lines := instructions.map (image.listedAt natives sourced) ++
          (image.sweepFrom natives sourced last).lines } := by
  induction path with
  | nil => rfl
  | cons here _ ih =>
    rw [sweepFrom_of_decode natives sourced here, ih]
    rfl

/-- A sweep lists the stop of the offset at which it ends. -/
theorem sweepFrom_of_endsWith {last : Nat} {stop : Option Stop}
    (ends : image.EndsWith sourced last stop) :
    image.sweepFrom natives sourced last = { stop := stop } := by
  cases ends with
  | complete => exact sweepFrom_of_size_le natives sourced (Nat.le_refl _)
  | stopped inside failed => exact sweepFrom_of_fault natives sourced inside failed

/-- The walk over a stream ends with a stop or without one. -/
theorem exists_endsWith {last : Nat} (ends : Path.Ends image.code last) :
    ∃ stop, image.EndsWith sourced last stop := by
  obtain rfl | ⟨inside, fault, failed⟩ := ends
  · exact ⟨none, .complete⟩
  · exact ⟨_, .stopped inside failed⟩

variable {natives sourced}

/-- The listing that follows a path to where the walk ends is the listing of the image. -/
theorem Follows.sweep?_eq {instructions : List Instruction} {last : Nat} {listing : Listing}
    (follows : image.Follows natives sourced instructions last listing) :
    image.sweep? natives = some listing := by
  unfold sweep?
  rw [dif_pos sourced, sweepFrom_of_path natives sourced follows.path,
    sweepFrom_of_endsWith natives sourced follows.stop, List.append_nil, ← follows.lines]

variable (image natives)

/-- The sweep of an image with source lines follows a path. -/
theorem exists_follows (sourced : 0 < image.lines.size) :
    ∃ instructions last listing, image.Follows natives sourced instructions last listing := by
  obtain ⟨instructions, last, path, ends⟩ := Path.exists_to_end image.code 0 (Nat.zero_le _)
  obtain ⟨stop, ends⟩ := exists_endsWith sourced ends
  exact ⟨instructions, last, ⟨instructions.map (image.listedAt natives sourced), stop⟩,
    path, rfl, ends⟩

variable {image natives}

/-- The listing of an image with source lines follows a path. -/
theorem follows_of_sweep? {listing : Listing} (sourced : 0 < image.lines.size)
    (swept : image.sweep? natives = some listing) :
    ∃ instructions last, image.Follows natives sourced instructions last listing := by
  obtain ⟨instructions, last, listing', follows⟩ := image.exists_follows natives sourced
  have same : listing' = listing := Option.some.inj (follows.sweep?_eq.symm.trans swept)
  exact ⟨instructions, last, same ▸ follows⟩

/-- An image without code has the empty listing, with source lines or without. -/
theorem sweep?_of_empty (natives : Natives) (empty : image.code = #[]) :
    image.sweep? natives = some {} := by
  unfold sweep?
  split
  · rename_i sourced
    rw [sweepFrom_of_size_le natives sourced (by rw [empty]; exact Nat.le_refl 0)]
  · rw [empty]
    rfl

/-- A listing follows a path, or is the empty listing of an empty stream. -/
theorem exists_follows_of_sweep? {listing : Listing}
    (swept : image.sweep? natives = some listing) :
    (∃ (sourced : 0 < image.lines.size) (instructions : List Instruction) (last : Nat),
        image.Follows natives sourced instructions last listing) ∨
      image.code = #[] ∧ listing = {} := by
  by_cases sourced : 0 < image.lines.size
  · obtain ⟨instructions, last, follows⟩ := follows_of_sweep? sourced swept
    exact Or.inl ⟨sourced, instructions, last, follows⟩
  · have empty : image.code = #[] := by
      apply Classical.byContradiction
      intro code
      have lines : image.lines = #[] := Array.eq_empty_of_size_eq_zero (by omega)
      rw [(image.sweep?_eq_none_iff natives).mpr ⟨lines, code⟩] at swept
      cases swept
    rw [sweep?_of_empty natives empty] at swept
    cases swept
    exact Or.inr ⟨empty, rfl⟩

/-- A function without parameters, a call of it, and a word that stands for no opcode. -/
def sample : Image where
  code := #[40, 0, 0, 0, 0, 0, 36, 0, -1]
  lines := #[⟨0, 1, 0⟩]

end Image

end Disassembler
