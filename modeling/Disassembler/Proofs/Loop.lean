import Disassembler.Proofs.Sweep

/-!
# The loop of a sweep

A sweep is a loop that holds what it has listed so far and the offset it has come to. Each turn
decodes one instruction there, or ends the loop with a stop. The loop lists what `Image.sweep?`
says, and takes one turn for each instruction and one more for the stop, which is never more than
the stream has words.
-/

namespace Disassembler

/-- What a sweep holds between two turns of its loop. -/
structure SweepState where
  /-- What is listed so far. -/
  listing : Listing := {}
  /-- The offset that the sweep has come to. -/
  offset : Nat := 0

namespace Image

variable (image : Image) (natives : Natives)

/-- The loop goes on: there is no stop yet, and the stream has not ended. -/
def Running (state : SweepState) : Prop :=
  state.listing.stop = none ∧ state.offset < image.code.size

/-- One turn of the loop. There is none without source lines. -/
def turn? (state : SweepState) : Option SweepState := do
  let source ← LineTable.locate? image.lines state.offset
  match Instruction.decode image.code state.offset with
  | .ok instruction =>
    let line := image.listed natives source instruction
    some
      { listing := { state.listing with lines := state.listing.lines ++ [line] }
        offset := instruction.next }
  | .error fault =>
    let stop := ⟨state.offset, source.line, image.fileName? source.file, fault⟩
    some { state with listing := { state.listing with stop := some stop } }

/-- The loop ends with a listing after a number of turns. -/
inductive Loops : Nat → SweepState → Listing → Prop where
  /-- The loop does not go on. -/
  | over {state : SweepState} : ¬ image.Running state → Loops 0 state state.listing
  /-- The loop takes a turn. -/
  | turn {turns : Nat} {state following : SweepState} {listing : Listing} : image.Running state →
      image.turn? natives state = some following → Loops turns following listing →
      Loops (turns + 1) state listing

variable {image natives} {sourced : 0 < image.lines.size}

/-- A turn at an instruction lists it and goes on behind it. -/
theorem turn?_of_decode (sourced : 0 < image.lines.size) {lines : List Line} {offset : Nat}
    {instruction : Instruction}
    (decoded : Instruction.decode image.code offset = .ok instruction) :
    image.turn? natives ⟨⟨lines, none⟩, offset⟩ =
      some ⟨⟨lines ++ [image.listedAt natives sourced instruction], none⟩, instruction.next⟩ := by
  obtain rfl := Instruction.offset_of_decode decoded
  unfold turn? LineTable.locate?
  simp only [dif_pos sourced, decoded]
  rfl

/-- A turn at a fault lists the stop. -/
theorem turn?_of_fault (sourced : 0 < image.lines.size) {lines : List Line} {offset : Nat}
    {fault : DecodeFault} (failed : Instruction.decode image.code offset = .error fault) :
    image.turn? natives ⟨⟨lines, none⟩, offset⟩ =
      some ⟨⟨lines, some (image.stopAt sourced offset fault)⟩, offset⟩ := by
  unfold turn? LineTable.locate?
  simp only [dif_pos sourced, failed]
  rfl

/-- The loop takes a turn for each instruction of a path and then goes on from its end. -/
theorem loops_of_path {first last : Nat} {instructions : List Instruction}
    (path : Path image.code first instructions last) {turns : Nat} {lines : List Line}
    {listing : Listing}
    (rest : image.Loops natives turns
      ⟨⟨lines ++ instructions.map (image.listedAt natives sourced), none⟩, last⟩ listing) :
    image.Loops natives (turns + instructions.length) ⟨⟨lines, none⟩, first⟩ listing := by
  induction path generalizing lines with
  | nil =>
    rw [List.map_nil, List.append_nil] at rest
    exact rest
  | cons here _ ih =>
    have inside := Instruction.lt_size_of_decode here
    rw [List.map_cons, List.append_cons] at rest
    exact Loops.turn ⟨rfl, inside⟩ (turn?_of_decode sourced here) (ih rest)

/-- Where the walk ends, the loop takes one more turn for a stop, and none otherwise. -/
theorem loops_of_endsWith (natives : Natives) (lines : List Line) {last : Nat} {stop : Option Stop}
    (ends : image.EndsWith sourced last stop) :
    image.Loops natives stop.toList.length ⟨⟨lines, none⟩, last⟩ ⟨lines, stop⟩ := by
  cases ends with
  | complete => exact .over fun running => absurd running.2 (Nat.lt_irrefl _)
  | stopped inside failed =>
    apply Loops.turn ⟨rfl, inside⟩ (turn?_of_fault sourced failed)
    apply Loops.over
    intro running
    cases running.1

/-- The loop lists the instructions of the path that the sweep follows, and what ends it. -/
theorem Follows.loops {instructions : List Instruction} {last : Nat} {listing : Listing}
    (follows : image.Follows natives sourced instructions last listing) :
    image.Loops natives (listing.stop.toList.length + instructions.length) {} listing := by
  obtain ⟨lines, stop⟩ := listing
  have rest := loops_of_endsWith natives lines follows.stop
  have same : lines = instructions.map (image.listedAt natives sourced) := follows.lines
  rw [same] at rest ⊢
  exact loops_of_path follows.path rest

end Image

end Disassembler
