import Disassembler.Proofs.Containment
import Disassembler.Proofs.Embedding
import Disassembler.Proofs.NameIndependence

/-!
# Listings of streams that follow each other

A stream can be put behind another one. If the listing of the first stream is complete, that of the
whole is the first listing and then the second one, with its offsets moved by the words of the first
stream. Calls in the second stream are left out: their targets are offsets of the whole.
-/

namespace Disassembler

/-- The same fault further on in a stream. -/
def DecodeFault.moved (distance : Nat) : DecodeFault → DecodeFault
  | .truncated offset needed => .truncated (distance + offset) needed
  | fault => fault

/-- The same line further on in a stream. -/
def Line.moved (distance : Nat) (line : Line) : Line :=
  { line with offset := distance + line.offset }

/-- The same stop further on in a stream. -/
def Stop.moved (distance : Nat) (stop : Stop) : Stop :=
  { stop with offset := distance + stop.offset, fault := stop.fault.moved distance }

namespace Listing

/-- The same listing further on in a stream. -/
def moved (distance : Nat) (listing : Listing) : Listing where
  lines := listing.lines.map (Line.moved distance)
  stop := listing.stop.map (Stop.moved distance)

/-- The lines of a listing and then those of another one, which says how the whole ends. -/
def followedBy (listing rest : Listing) : Listing where
  lines := listing.lines ++ rest.lines
  stop := rest.stop

/-- A listing comes to an offset: one of its lines is there, or its stop. -/
def ComesTo (listing : Listing) (offset : Nat) : Prop :=
  offset ∈ listing.lines.map Line.offset ∨ listing.stop.map Stop.offset = some offset

variable (listing rest : Listing) (distance : Nat)

/-- The boundaries of two listings, one after the other. -/
theorem boundaries_followedBy :
    (listing.followedBy rest).boundaries =
      (listing.boundaries.1 ++ rest.boundaries.1, rest.boundaries.2) := by
  simp only [boundaries, followedBy, List.map_append]

/-- The boundaries of a listing move with it. -/
theorem boundaries_moved :
    (listing.moved distance).boundaries =
      (listing.boundaries.1.map fun start => (distance + start.1, start.2),
        listing.boundaries.2.map fun stop => (distance + stop.1, stop.2.moved distance)) := by
  simp only [boundaries, moved, List.map_map, Option.map_map]
  rfl

/-- The texts of the operands of two listings, one after the other. -/
theorem operandColumn_followedBy :
    (listing.followedBy rest).operandColumn = listing.operandColumn ++ rest.operandColumn := by
  simp only [operandColumn, followedBy, List.map_append]

/-- The texts of the operands do not depend on where a listing is. -/
theorem operandColumn_moved : (listing.moved distance).operandColumn = listing.operandColumn := by
  simp only [operandColumn, moved, List.map_map]
  rfl

end Listing

namespace Instruction

variable {code : Array Word} {offset : Nat}

/-- An instruction that is no call is decoded behind other words as it is without them. -/
theorem decode_behind {instruction : Instruction} (front : Array Word)
    (decoded : decode code offset = .ok instruction) (noCall : ¬ Calls code offset) :
    decode (front ++ code) (front.size + offset) = .ok (instruction.moved front.size) := by
  have behind : decode (front ++ code ++ #[]) (front.size + offset) =
      .ok (instruction.moved front.size) :=
    decode_between decoded fun calls => absurd calls noCall
  rw [Array.append_empty] at behind
  exact behind

/-- What is no instruction, and no call either, is none behind other words, for the same reason. -/
theorem decode_behind_of_fault {fault : DecodeFault} (front : Array Word)
    (failed : decode code offset = .error fault) (noCall : ¬ Calls code offset) :
    decode (front ++ code) (front.size + offset) = .error (fault.moved front.size) := by
  have whole : front ++ code ++ #[] = front ++ code := Array.append_empty
  rw [← whole]
  obtain ⟨word, rfl, -⟩ | ⟨target, -, called, -⟩ | ⟨needed, positive, rfl⟩ := fault_cases failed
  · exact decode_between_of_illegal failed
  · exact absurd called.opcode noCall
  · exact decode_between_of_truncated failed positive fun calls => absurd calls noCall

end Instruction

/-- A path without calls leads through the same instructions behind other words. -/
theorem Path.behind {code : Array Word} {first last : Nat} {instructions : List Instruction}
    (path : Path code first instructions last) (front : Array Word)
    (noCalls : ∀ instruction ∈ instructions, ¬ Instruction.Calls code instruction.offset) :
    Path (front ++ code) (front.size + first) (instructions.map (·.moved front.size))
      (front.size + last) := by
  induction path with
  | nil offset => exact nil (front.size + offset)
  | @cons offset last instruction rest here tail ih =>
    have start : instruction.offset = offset := Instruction.offset_of_decode here
    have noCall := noCalls instruction List.mem_cons_self
    rw [start] at noCall
    have next : (instruction.moved front.size).next = front.size + instruction.next := by
      simp only [Instruction.next, Instruction.moved, Instruction.width]
      omega
    have moved := ih fun later among => noCalls later (List.mem_cons_of_mem _ among)
    rw [← next] at moved
    exact cons (Instruction.decode_behind front here noCall) moved

namespace Image

variable {image : Image} {natives : Natives} {sourced : 0 < image.lines.size}
  {instructions : List Instruction} {last : Nat} {listing : Listing} {front back : Array Word}

/-- A listing comes to each instruction of its path. -/
theorem Follows.comesTo (follows : image.Follows natives sourced instructions last listing) :
    ∀ instruction ∈ instructions, listing.ComesTo instruction.offset := by
  intro instruction among
  have listed : image.listedAt natives sourced instruction ∈ listing.lines := by
    rw [follows.lines]
    exact List.mem_map_of_mem among
  exact Or.inl (List.mem_map_of_mem listed)

/-- A listing with a stop comes to the end of its path. -/
theorem Follows.comesTo_last (follows : image.Follows natives sourced instructions last listing)
    {stop : Stop} (stopped : listing.stop = some stop) : listing.ComesTo last := by
  have ends := follows.stop
  rw [stopped] at ends
  have offset : stop.offset = last := congrArg Stop.offset ends.stop_eq.1
  refine Or.inr ?_
  rw [stopped, Option.map_some, offset]

/-- A complete listing ends where the stream does. -/
theorem Follows.last_eq_size (follows : image.Follows natives sourced instructions last listing)
    (complete : listing.stop = none) : last = image.code.size := by
  have ends := follows.stop
  rw [complete] at ends
  cases ends with
  | complete => rfl

/-- What ends a sweep ends it behind other words as well, unless it is a call. -/
theorem EndsWith.behind {sourced : 0 < (image.withCode back).lines.size} {stop : Option Stop}
    (ends : (image.withCode back).EndsWith sourced last stop) (front : Array Word)
    (noCall : stop.isSome → ¬ Instruction.Calls back last) :
    (image.withCode (front ++ back)).EndsWith sourced (front.size + last)
      (stop.map fun stop => (image.withCode (front ++ back)).stopAt sourced (front.size + last)
        (stop.fault.moved front.size)) := by
  have size : (front ++ back).size = front.size + back.size := Array.size_append
  cases ends with
  | complete =>
    show (image.withCode (front ++ back)).EndsWith sourced (front.size + back.size) none
    rw [← size]
    exact .complete
  | stopped inside failed =>
    have inside' : front.size + last < (front ++ back).size := by
      have inside : last < back.size := inside
      omega
    exact .stopped inside' (Instruction.decode_behind_of_fault front failed (noCall rfl))

/-- The sweep of a stream that starts with a completely listed one goes on with the instructions of
the other one. -/
theorem Follows.append {first second : Listing} {rest : List Instruction} {middle : Nat}
    (follows : (image.withCode front).Follows natives sourced instructions middle first)
    (complete : first.stop = none)
    (follows' : (image.withCode back).Follows natives sourced rest last second)
    (noCalls : ∀ offset, second.ComesTo offset → ¬ Instruction.Calls back offset) :
    (image.withCode (front ++ back)).Follows natives sourced
      (instructions ++ rest.map (·.moved front.size)) (front.size + last)
      { lines := (instructions ++ rest.map (·.moved front.size)).map
          ((image.withCode (front ++ back)).listedAt natives sourced)
        stop := second.stop.map fun stop => (image.withCode (front ++ back)).stopAt sourced
          (front.size + last) (stop.fault.moved front.size) } where
  path := by
    have atEnd : middle = front.size := follows.last_eq_size complete
    have before : Path (front ++ back) 0 instructions front.size := by
      rw [← atEnd]
      exact follows.path.extend fun place inside => Array.getElem?_append_left inside
    exact before.append (follows'.path.behind front fun instruction among =>
      noCalls _ (follows'.comesTo instruction among))
  -- The lines are those of the whole stream, as the source lines and files depend on the offsets.
  lines := rfl
  stop := by
    apply follows'.stop.behind front
    intro stopped
    obtain ⟨stop, stopped⟩ := Option.isSome_iff_exists.mp stopped
    exact noCalls last (follows'.comesTo_last stopped)

/-- The listing of two streams that follow each other, where that of the first is complete and that
of the second comes to no call, is the first listing and then the second one further on, except for
the source lines and files. What ends it is an illegal opcode or a truncated instruction. -/
theorem sweep?_append (image : Image) (natives : Natives) (sourced : 0 < image.lines.size)
    (front back : Array Word) {first second : Listing}
    (swept : (image.withCode front).sweep? natives = some first) (complete : first.stop = none)
    (swept' : (image.withCode back).sweep? natives = some second)
    (noCalls : ∀ offset, second.ComesTo offset → ¬ Instruction.Calls back offset) :
    ∃ whole, (image.withCode (front ++ back)).sweep? natives = some whole ∧
      whole.boundaries = (first.followedBy (second.moved front.size)).boundaries ∧
      whole.operandColumn = (first.followedBy (second.moved front.size)).operandColumn ∧
      ∀ stop, second.stop = some stop → (∃ word, stop.fault = .illegalOpcode word) ∨
        ∃ needed, stop.fault = .truncated stop.offset needed := by
  have sourcedFront : 0 < (image.withCode front).lines.size := sourced
  have sourcedBack : 0 < (image.withCode back).lines.size := sourced
  obtain ⟨instructions, middle, follows⟩ := follows_of_sweep? sourcedFront swept
  obtain ⟨rest, last, follows'⟩ := follows_of_sweep? sourcedBack swept'
  have whole : (image.withCode (front ++ back)).Follows natives sourced _ _ _ :=
    Follows.append follows complete follows' noCalls
  refine ⟨_, whole.sweep?_eq, ?_, ?_, ?_⟩
  · rw [whole.boundaries_eq, Listing.boundaries_followedBy, Listing.boundaries_moved,
      follows.boundaries_eq, follows'.boundaries_eq, List.map_append, List.map_map, List.map_map,
      Option.map_map, Option.map_map]
    rfl
  · rw [whole.operandColumn_eq, Listing.operandColumn_followedBy, Listing.operandColumn_moved,
      follows.operandColumn_eq, follows'.operandColumn_eq, List.map_append, List.map_map]
    rfl
  · intro stop stopped
    have called := noCalls last (follows'.comesTo_last stopped)
    have ends := follows'.stop
    rw [stopped] at ends
    obtain ⟨atLast, -, failed⟩ := ends.stop_eq
    have offset : stop.offset = last := congrArg Stop.offset atLast
    rw [offset]
    obtain ⟨word, same, -⟩ | ⟨_, -, call, -⟩ | ⟨needed, -, same⟩ := Instruction.fault_cases failed
    · exact Or.inl ⟨word, same⟩
    · exact absurd call.opcode called
    · exact Or.inr ⟨needed, same⟩

/-- A function and a call of it. -/
def called : Array Word := #[40, 0, 0, 0, 0, 0, 36, 0]

/-- A function, and a function with four cases whose table is cut off. -/
def severed : Array Word := #[40, 0, 0, 0, 0, 0, 41, 0, 4, 1, 0]

/-- Behind the call the other two functions are listed further on, and the second one still lacks
seven words. -/
theorem sweep?_append_severed : 0 < sample.lines.size ∧ ∃ first second,
    (sample.withCode called).sweep? {} = some first ∧ first.stop = none ∧
      (sample.withCode severed).sweep? {} = some second ∧
      (∀ offset, second.ComesTo offset → ¬ Instruction.Calls severed offset) ∧
      second.stop.map Stop.fault = some (.truncated 6 7) ∧
      ∃ whole, (sample.withCode (called ++ severed)).sweep? {} = some whole ∧
        whole.boundaries = (first.followedBy (second.moved 8)).boundaries ∧
        whole.operandColumn = (first.followedBy (second.moved 8)).operandColumn := by
  have sourced : 0 < sample.lines.size := by decide
  have path : Path (sample.withCode called).code 0
      [⟨0, .functionStart, .functionHeader ⟨0, [], [], 0, []⟩, 5⟩,
        ⟨6, .call, .callSite ⟨0, 0⟩ 0, 1⟩] 8 :=
    .cons (by decide +kernel) (.cons (by decide +kernel) (.nil 8))
  have path' : Path (sample.withCode severed).code 0
      [⟨0, .functionStart, .functionHeader ⟨0, [], [], 0, []⟩, 5⟩] 6 :=
    .cons (by decide +kernel) (.nil 6)
  have failed : Instruction.decode (sample.withCode severed).code 6 = .error (.truncated 6 7) := by
    decide +kernel
  obtain ⟨first, follows, complete⟩ : ∃ first,
      (sample.withCode called).Follows {} sourced _ 8 first ∧ first.stop = none :=
    ⟨⟨_, none⟩, ⟨path, rfl, .complete⟩, rfl⟩
  obtain ⟨second, follows', starts, stops⟩ : ∃ second,
      (sample.withCode severed).Follows {} sourced _ 6 second ∧
        second.lines.map Line.offset = [0] ∧
        second.stop.map Stop.fault = some (.truncated 6 7) ∧ second.stop.map Stop.offset = some 6 :=
    ⟨⟨_, some _⟩, ⟨path', rfl, .stopped (by decide) failed⟩, rfl, rfl, rfl⟩
  have noCalls : ∀ offset, second.ComesTo offset → ¬ Instruction.Calls severed offset := by
    unfold Listing.ComesTo
    rw [starts, stops.2]
    rintro offset (among | atStop)
    · rw [List.mem_singleton.mp among]
      decide +kernel
    · rw [← Option.some.inj atStop]
      decide +kernel
  obtain ⟨whole, swept, boundaries, operands, -⟩ := sweep?_append sample {} sourced called severed
    follows.sweep?_eq complete follows'.sweep?_eq noCalls
  exact ⟨sourced, first, second, follows.sweep?_eq, complete, follows'.sweep?_eq, noCalls, stops.1,
    whole, swept, boundaries, operands⟩

end Image

end Disassembler
