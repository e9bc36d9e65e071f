import Disassembler.Proofs.Loop

/-!
# Listings tile the stream

The lines of a listing and its stop say where each instruction starts. Between the start of one and
the start of the next there is exactly one instruction, the one that is listed, so every word before
the stop, or every word of the stream if there is no stop, belongs to exactly one line.
-/

namespace Disassembler

/-- A place of the stream belongs to the instruction of a line. -/
def Line.Holds (code : Array Word) (line : Line) (place : Nat) : Prop :=
  ∃ instruction, Instruction.decode code line.offset = .ok instruction ∧ line.offset ≤ place ∧
    place < instruction.next

namespace Listing

/-- The offset at which a listing ends: that of its stop, or else the end of the stream. -/
def last (listing : Listing) (code : Array Word) : Nat :=
  (listing.stop.map Stop.offset).getD code.size

/-- The offset of a line, or the offset at which the listing ends if there is no such line. -/
def start (listing : Listing) (code : Array Word) (index : Nat) : Nat :=
  (listing.lines[index]?.map Line.offset).getD (listing.last code)

/-- The lines of a listing and its stop tile the stream of an image. -/
structure Tiles (image : Image) (natives : Natives) (listing : Listing) : Prop where
  /-- The first line is at the start of the stream. -/
  first : ∀ line, listing.lines[0]? = some line → line.offset = 0
  /-- Each line is that of the instruction at its offset, which ends where the next line starts. -/
  lines : ∀ index line, listing.lines[index]? = some line → ∃ instruction,
    Instruction.decode image.code line.offset = .ok instruction ∧
      line.mnemonic = instruction.opcode.mnemonic ∧
      line.operands = instruction.operandText image.toNameTables natives ∧
      instruction.next = listing.start image.code (index + 1)
  /-- The stop is at an instruction that cannot be decoded, and holds the fault. -/
  stop : ∀ stop, listing.stop = some stop → stop.offset < image.code.size ∧
    Instruction.decode image.code stop.offset = .error stop.fault
  /-- Without lines the stream is empty, or its first instruction cannot be decoded. -/
  empty : listing.lines = [] → image.code = #[] ∧ listing.stop = none ∨
    ∃ stop, listing.stop = some stop ∧ stop.offset = 0
  /-- The listing does not leave the stream. -/
  inside : listing.last image.code ≤ image.code.size
  /-- Each place before the end of the listing belongs to one line, and to no other one. -/
  places : ∀ place < listing.last image.code, ∃ (index : Nat) (line : Line),
    listing.lines[index]? = some line ∧ line.Holds image.code place ∧
      ∀ (index' : Nat) (line' : Line), listing.lines[index']? = some line' →
        line'.Holds image.code place → index' = index

end Listing

namespace Image

variable {image : Image} {natives : Natives} {sourced : 0 < image.lines.size}
  {instructions : List Instruction} {last : Nat} {listing : Listing}

/-- A sweep ends at its stop, or at the end of the stream. -/
theorem Follows.last_eq (follows : image.Follows natives sourced instructions last listing) :
    listing.last image.code = last := by
  obtain ⟨lines, stop⟩ := listing
  have ends := follows.stop
  cases ends with
  | complete => rfl
  | stopped => rfl

/-- The lines start where the instructions of the path do. -/
theorem Follows.start_eq (follows : image.Follows natives sourced instructions last listing)
    (index : Nat) :
    listing.start image.code index =
      (instructions[index]?.map Instruction.offset).getD last := by
  unfold Listing.start
  rw [follows.last_eq, follows.lines, List.getElem?_map, Option.map_map]
  rfl

/-- A line is that of the instruction of the path with the same index. -/
theorem Follows.line_eq (follows : image.Follows natives sourced instructions last listing)
    {index : Nat} {line : Line} (found : listing.lines[index]? = some line) :
    ∃ instruction, instructions[index]? = some instruction ∧
      line = image.listedAt natives sourced instruction ∧
      Instruction.decode image.code line.offset = .ok instruction := by
  rw [follows.lines, List.getElem?_map, Option.map_eq_some_iff] at found
  obtain ⟨instruction, here, rfl⟩ := found
  exact ⟨instruction, here, rfl, follows.path.decoded _ (List.mem_of_getElem? here)⟩

/-- A place belongs to a line exactly if it belongs to the instruction of the path with the same
index. -/
theorem Follows.holds_iff (follows : image.Follows natives sourced instructions last listing)
    {index place : Nat} {line : Line} (found : listing.lines[index]? = some line) :
    line.Holds image.code place ↔ ∃ instruction, instructions[index]? = some instruction ∧
      instruction.offset ≤ place ∧ place < instruction.next := by
  obtain ⟨instruction, here, rfl, decoded⟩ := follows.line_eq found
  constructor
  · rintro ⟨again, decoded', lower, upper⟩
    rw [decoded] at decoded'
    cases decoded'
    exact ⟨instruction, here, lower, upper⟩
  · rintro ⟨again, here', lower, upper⟩
    cases here.symm.trans here'
    exact ⟨instruction, decoded, lower, upper⟩

/-- The stop of a sweep is at its end and in the stream, and decoding there gives its fault. -/
theorem EndsWith.stop_eq {stop : Stop} (ends : image.EndsWith sourced last (some stop)) :
    stop = image.stopAt sourced last stop.fault ∧ last < image.code.size ∧
      Instruction.decode image.code last = .error stop.fault := by
  cases ends with
  | stopped inside failed => exact ⟨rfl, inside, failed⟩

/-- A listing that follows a path tiles the stream. -/
theorem Follows.tiles (follows : image.Follows natives sourced instructions last listing) :
    listing.Tiles image natives where
  first line found := by
    have start := follows.start_eq 0
    unfold Listing.start at start
    rw [follows.path.start_eq, found] at start
    exact start
  lines index line found := by
    obtain ⟨instruction, here, rfl, decoded⟩ := follows.line_eq found
    refine ⟨instruction, decoded, rfl, rfl, ?_⟩
    rw [follows.start_eq, follows.path.next_eq here]
  stop stop stopped := by
    have ends := follows.stop
    rw [stopped] at ends
    obtain ⟨same, inside, failed⟩ := ends.stop_eq
    rw [same]
    exact ⟨inside, failed⟩
  empty none := by
    have start := follows.start_eq 0
    unfold Listing.start Listing.last at start
    rw [follows.path.start_eq, none] at start
    cases stopped : listing.stop with
    | none =>
      rw [stopped] at start
      exact Or.inl ⟨Array.eq_empty_of_size_eq_zero start, rfl⟩
    | some stop =>
      rw [stopped] at start
      exact Or.inr ⟨stop, rfl, start⟩
  inside := by
    rw [follows.last_eq]
    exact follows.path.last_le (Nat.zero_le _)
  places place before := by
    rw [follows.last_eq] at before
    obtain ⟨index, instruction, here, bounds⟩ :=
      follows.path.covered (Nat.zero_le place) before
    have found : listing.lines[index]? = some (image.listedAt natives sourced instruction) := by
      rw [follows.lines, List.getElem?_map, here]
      rfl
    refine ⟨index, _, found, (follows.holds_iff found).mpr ⟨instruction, here, bounds⟩, ?_⟩
    intro index' line' found' holds
    obtain ⟨instruction', here', bounds'⟩ := (follows.holds_iff found').mp holds
    exact follows.path.index_unique here' here bounds' bounds

/-- The listing of an image without code tiles its stream. -/
theorem tiles_of_empty (empty : image.code = #[]) : Listing.Tiles image natives {} := by
  have size : image.code.size = 0 := by rw [empty]; rfl
  constructor
  · intro line found
    cases found
  · intro index line found
    cases found
  · intro stop stopped
    cases stopped
  · intro _
    exact Or.inl ⟨empty, rfl⟩
  · exact Nat.le_refl _
  · intro place before
    exact absurd before (by rw [show Listing.last {} image.code = image.code.size from rfl]; omega)

/-- Every image that has source lines, or no code, has a listing. The loop of the sweep ends with it
after at most as many turns as the stream has words, and the listing tiles the stream. -/
theorem sweep?_tiles (image : Image) (natives : Natives)
    (sweepable : 0 < image.lines.size ∨ image.code = #[]) :
    ∃ listing turns, image.sweep? natives = some listing ∧
      image.Loops natives turns {} listing ∧ turns ≤ image.code.size ∧
      listing.Tiles image natives := by
  by_cases sourced : 0 < image.lines.size
  · obtain ⟨instructions, last, listing, follows⟩ := image.exists_follows natives sourced
    have inside := follows.path.last_le (Nat.zero_le _)
    have long := follows.path.add_length_le
    refine ⟨listing, _, follows.sweep?_eq, follows.loops, ?_, follows.tiles⟩
    cases stopped : listing.stop with
    | none =>
      show 0 + instructions.length ≤ _
      omega
    | some stop =>
      have ends := follows.stop
      rw [stopped] at ends
      obtain ⟨-, before, -⟩ := ends.stop_eq
      show 1 + instructions.length ≤ _
      omega
  · have empty : image.code = #[] := sweepable.resolve_left sourced
    refine ⟨{}, 0, ?_, ?_, Nat.zero_le _, tiles_of_empty empty⟩
    · unfold sweep?
      rw [dif_neg sourced, empty]
      rfl
    · apply Loops.over
      intro running
      have inside := running.2
      rw [empty] at inside
      exact absurd inside (Nat.not_lt_zero _)

/-- The sample is tiled. -/
theorem sweep?_tiles_sample : 0 < sample.lines.size ∧
    ∃ listing turns, sample.sweep? {} = some listing ∧ sample.Loops {} turns {} listing ∧
      turns ≤ sample.code.size ∧ listing.Tiles sample {} :=
  ⟨by decide, sweep?_tiles sample {} (Or.inl (by decide))⟩

end Image

end Disassembler
