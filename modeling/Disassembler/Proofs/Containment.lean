import Disassembler.Proofs.Tiling

/-!
# Containment of faults

What a listing shows before an offset depends on the words before that offset, and on the headers
that calls there read, alone. A fault behind it does not show, and neither does anything else: two
streams that agree on these words have the same lines there, and a stream that grows keeps the lines
that it had.
-/

namespace Disassembler

/-- The first lines of a listing are those of instructions that end at an offset or before it, and
that read no header behind it. -/
def Listing.Within (listing : Listing) (code : Array Word) (count shared : Nat) : Prop :=
  ∀ index < count, ∃ line instruction, listing.lines[index]? = some line ∧
    Instruction.decode code line.offset = .ok instruction ∧ instruction.next ≤ shared ∧
    ∀ place, Instruction.ReadsHeader code line.offset place → place < shared

/-- A listing has the lines that it shows within an offset. -/
theorem Listing.Within.count_le {listing : Listing} {code : Array Word} {count shared : Nat}
    (within : listing.Within code count shared) : count ≤ listing.lines.length := by
  apply Nat.le_of_not_lt
  intro beyond
  obtain ⟨line, -, found, -⟩ := within _ beyond
  rw [List.getElem?_eq_none (Nat.le_refl _)] at found
  cases found

namespace Image

/-- An image with the same tables and another stream. -/
def withCode (image : Image) (code : Array Word) : Image := { image with code := code }

variable {image : Image} {natives : Natives} {sourced : 0 < image.lines.size}
  {instructions : List Instruction} {last : Nat} {listing : Listing} {code : Array Word}

/-- A sweep over another stream starts with the instructions of each path through it. -/
theorem sweep?_of_path (natives : Natives) (sourced : 0 < image.lines.size)
    (path : Path code 0 instructions last) :
    ∃ other, (image.withCode code).sweep? natives = some other ∧
      instructions.map (image.listedAt natives sourced) <+: other.lines := by
  have sourced' : 0 < (image.withCode code).lines.size := sourced
  have path' : Path (image.withCode code).code 0 instructions last := path
  refine ⟨_, dif_pos sourced', ?_⟩
  rw [sweepFrom_of_path natives sourced' path']
  exact List.prefix_append _ _

/-- The first instructions of a path are those of the first lines. -/
theorem Follows.exists_line (follows : image.Follows natives sourced instructions last listing)
    {count : Nat} {instruction : Instruction} (among : instruction ∈ instructions.take count) :
    ∃ index < count, listing.lines[index]? = some (image.listedAt natives sourced instruction) := by
  obtain ⟨index, here⟩ := List.getElem?_of_mem among
  rw [List.getElem?_take] at here
  split at here
  · rename_i before
    refine ⟨index, before, ?_⟩
    rw [follows.lines, List.getElem?_map, here]
    rfl
  · cases here

/-- Streams that agree up to an offset have the same lines within it. -/
theorem Follows.take_eq (follows : image.Follows natives sourced instructions last listing)
    {count shared : Nat} (same : ∀ place < shared, code[place]? = image.code[place]?)
    (within : listing.Within image.code count shared) :
    ∃ other, (image.withCode code).sweep? natives = some other ∧
      other.lines.take count = listing.lines.take count := by
  obtain ⟨middle, before, -⟩ := follows.path.split count
  have bounded : ∀ instruction ∈ instructions.take count, instruction.next ≤ shared ∧
      ∀ place, Instruction.ReadsHeader image.code instruction.offset place → place < shared := by
    intro instruction among
    have here := before.decoded instruction among
    obtain ⟨index, short, found⟩ := follows.exists_line among
    obtain ⟨line, instruction', found', decoded, ends, reads⟩ := within index short
    cases found.symm.trans found'
    cases here.symm.trans decoded
    exact ⟨ends, reads⟩
  have moved : Path code 0 (instructions.take count) middle := by
    apply before.transfer
    · intro instruction among place _ upper
      exact same place (Nat.lt_of_lt_of_le upper (bounded instruction among).1)
    · intro instruction among place reads
      exact same place ((bounded instruction among).2 place reads)
  obtain ⟨other, swept, rest, lines⟩ := sweep?_of_path natives sourced moved
  refine ⟨other, swept, ?_⟩
  rw [List.map_take, ← follows.lines] at lines
  have length : (listing.lines.take count).length = count := List.length_take_of_le within.count_le
  rw [← lines, List.take_left' length]

/-- A stream that grows keeps the lines that it had. -/
theorem Follows.lines_prefix (follows : image.Follows natives sourced instructions last listing)
    (tail : Array Word) :
    ∃ longer, (image.withCode (image.code ++ tail)).sweep? natives = some longer ∧
      listing.lines <+: longer.lines := by
  have moved : Path (image.code ++ tail) 0 instructions last :=
    follows.path.extend fun place inside => Array.getElem?_append_left inside
  rw [follows.lines]
  exact sweep?_of_path natives sourced moved

/-- A stream that grows behind an illegal opcode keeps its listing. -/
theorem Follows.append_of_illegal
    (follows : image.Follows natives sourced instructions last listing) (tail : Array Word)
    {stop : Stop} {word : Word} (stopped : listing.stop = some stop)
    (illegal : stop.fault = .illegalOpcode word) :
    (image.withCode (image.code ++ tail)).sweep? natives = some listing := by
  have grown : ∀ place < image.code.size, (image.code ++ tail)[place]? = image.code[place]? :=
    fun place inside => Array.getElem?_append_left inside
  have sourced' : 0 < (image.withCode (image.code ++ tail)).lines.size := sourced
  have ends := follows.stop
  rw [stopped] at ends
  obtain ⟨atLast, inside, failed⟩ := ends.stop_eq
  rw [illegal] at atLast failed
  obtain ⟨found, outside⟩ := ((Instruction.outcomes image.code last).illegal word).mp failed
  have failed' : Instruction.decode (image.code ++ tail) last = .error (.illegalOpcode word) :=
    ((Instruction.outcomes _ last).illegal word).mpr ⟨(grown last inside).trans found, outside⟩
  have inside' : last < (image.code ++ tail).size := by
    rw [Array.size_append]
    omega
  have ends' : (image.withCode (image.code ++ tail)).EndsWith sourced' last listing.stop := by
    rw [stopped, atLast]
    exact .stopped inside' failed'
  exact Follows.sweep?_eq ⟨follows.path.extend grown, follows.lines, ends'⟩

/-- A word that no call before it reads can be overwritten without a change to the path up to it. -/
theorem Follows.path_of_overwrite
    (follows : image.Follows natives sourced instructions last listing) {index offset : Nat}
    (before : Path image.code 0 (instructions.take index) offset) (word : Word)
    (unread : ∀ earlier < index, ∀ line, listing.lines[earlier]? = some line →
      ¬ Instruction.ReadsHeader image.code line.offset offset) :
    Path (image.code.setIfInBounds offset word) 0 (instructions.take index) offset := by
  have elsewhere {place : Nat} (other : place ≠ offset) :
      (image.code.setIfInBounds offset word)[place]? = image.code[place]? :=
    Array.getElem?_setIfInBounds_ne (Ne.symm other)
  apply before.transfer
  · intro earlier among place _ upper
    have bounds := before.bounds earlier among
    exact elsewhere (by omega)
  · intro earlier among place reads
    obtain ⟨index', order, found⟩ := follows.exists_line among
    apply elsewhere
    rintro rfl
    exact unread index' order _ found reads

/-- An illegal opcode at the start of a line ends the listing there, and changes nothing before it
unless a call there reads it. -/
theorem Follows.overwrite (follows : image.Follows natives sourced instructions last listing)
    {index : Nat} {line : Line} {word : Word} (found : listing.lines[index]? = some line)
    (illegal : Opcode.ofWord? word = none)
    (unread : ∀ earlier < index, ∀ line', listing.lines[earlier]? = some line' →
      ¬ Instruction.ReadsHeader image.code line'.offset line.offset) :
    (image.withCode (image.code.setIfInBounds line.offset word)).sweep? natives =
      some
        { lines := listing.lines.take index
          stop := some ⟨line.offset, line.line, line.file, .illegalOpcode word⟩ } := by
  obtain ⟨instruction, here, rfl, decoded⟩ := follows.line_eq found
  have moved := follows.path_of_overwrite (follows.path.up_to here) word unread
  have inside : instruction.offset < image.code.size := Instruction.lt_size_of_decode decoded
  have changed : (image.code.setIfInBounds instruction.offset word)[instruction.offset]? =
      some word := Array.getElem?_setIfInBounds_self_of_lt inside
  have failed := Instruction.decode_of_illegal changed illegal
  have inside' := (Array.getElem?_eq_some_iff.mp changed).1
  have sourced' :
      0 < (image.withCode (image.code.setIfInBounds instruction.offset word)).lines.size := sourced
  have shortened : listing.lines.take index =
      (instructions.take index).map
        ((image.withCode (image.code.setIfInBounds instruction.offset word)).listedAt natives
          sourced') := by
    rw [follows.lines, ← List.map_take]
    rfl
  exact Follows.sweep?_eq ⟨moved, shortened, .stopped inside' failed⟩

/-- Faults are contained. Streams that agree up to an offset, and the tables, give the same lines
within it. Appending words keeps every line, and keeps the listing behind an illegal opcode.
Overwriting the opcode of a line with a word that stands for none ends the listing before that
line. -/
theorem sweep?_contains (image : Image) (natives : Natives) (sourced : 0 < image.lines.size) :
    ∃ listing, image.sweep? natives = some listing ∧
      (∀ code shared count, (∀ place < shared, code[place]? = image.code[place]?) →
        listing.Within image.code count shared →
          ∃ other, (image.withCode code).sweep? natives = some other ∧
            other.lines.take count = listing.lines.take count) ∧
      (∀ tail, ∃ longer, (image.withCode (image.code ++ tail)).sweep? natives = some longer ∧
        listing.lines <+: longer.lines ∧
        ∀ stop word, listing.stop = some stop → stop.fault = .illegalOpcode word →
          longer = listing) ∧
      (∀ (index : Nat) (line : Line) (word : Word), listing.lines[index]? = some line →
        ¬ (0 ≤ word.toInt ∧ word.toInt < Opcode.count) →
        (∀ earlier < index, ∀ line', listing.lines[earlier]? = some line' →
          ¬ Instruction.ReadsHeader image.code line'.offset line.offset) →
        (image.withCode (image.code.setIfInBounds line.offset word)).sweep? natives =
          some
            { lines := listing.lines.take index
              stop := some ⟨line.offset, line.line, line.file, .illegalOpcode word⟩ }) := by
  obtain ⟨instructions, last, listing, follows⟩ := image.exists_follows natives sourced
  refine ⟨listing, follows.sweep?_eq, ?_, ?_, ?_⟩
  · intro code shared count same within
    exact follows.take_eq same within
  · intro tail
    obtain ⟨longer, swept, lines⟩ := follows.lines_prefix tail
    refine ⟨longer, swept, lines, ?_⟩
    intro stop word stopped illegal
    exact Option.some.inj (swept.symm.trans (follows.append_of_illegal tail stopped illegal))
  · intro index line word found outside unread
    exact follows.overwrite found (Opcode.ofWord?_eq_none_iff.mpr outside) unread

/-- Overwriting the opcode of the sample's call ends the listing behind the function that it
calls. -/
theorem sweep?_contains_sample : 0 < sample.lines.size ∧
    ∃ listing line, sample.sweep? {} = some listing ∧ listing.lines[1]? = some line ∧
      (sample.withCode (sample.code.setIfInBounds 6 (-1))).sweep? {} =
        some
          { lines := listing.lines.take 1
            stop := some ⟨6, line.line, line.file, .illegalOpcode (-1)⟩ } := by
  have sourced : 0 < sample.lines.size := by decide
  have path : Path sample.code 0
      [⟨0, .functionStart, .functionHeader ⟨0, [], [], 0, []⟩, 5⟩,
        ⟨6, .call, .callSite ⟨0, 0⟩ 0, 1⟩] 8 :=
    .cons (by decide +kernel) (.cons (by decide +kernel) (.nil 8))
  have failed : Instruction.decode sample.code 8 = .error (.illegalOpcode (-1)) := by
    decide +kernel
  have follows : sample.Follows {} sourced _ 8 ⟨_, _⟩ := ⟨path, rfl, .stopped (by decide) failed⟩
  obtain ⟨listing, swept, -, -, overwritten⟩ := sweep?_contains sample {} sourced
  cases swept.symm.trans follows.sweep?_eq
  refine ⟨sourced, _, _, swept, rfl, ?_⟩
  apply overwritten 1 _ (-1) rfl (by decide +kernel)
  rintro earlier first line' found ⟨target, slot, called, -⟩
  obtain rfl : earlier = 0 := by omega
  cases found
  have noCall : ¬ (sample.code[0]? = some Opcode.call.word ∨
      sample.code[0]? = some Opcode.multiCall.word) := by decide +kernel
  exact noCall called.opcode

end Image

end Disassembler
