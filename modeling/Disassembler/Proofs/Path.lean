import Disassembler.Proofs.Locality

/-!
# Paths through a stream

A path lists the instructions from one offset of a stream to another, each where the one before it
ends. Paths are what sweeps follow: their instructions do not overlap and leave no word out, a path
can be followed from every offset up to the end of the stream or to a fault, and the same path leads
through every stream that has the same words in it.
-/

namespace Disassembler

/-- The instructions from one offset to another, each where the one before it ends. -/
inductive Path (code : Array Word) : Nat → List Instruction → Nat → Prop where
  /-- No instruction leads to the offset itself. -/
  | nil (offset : Nat) : Path code offset [] offset
  /-- An instruction comes before those that start where it ends. -/
  | cons {offset last : Nat} {instruction : Instruction} {rest : List Instruction} :
      Instruction.decode code offset = .ok instruction → Path code instruction.next rest last →
      Path code offset (instruction :: rest) last

namespace Path

variable {code other : Array Word} {first last : Nat} {instructions : List Instruction}

/-- Each instruction of a path is decoded at its own offset. -/
theorem decoded (path : Path code first instructions last) :
    ∀ instruction ∈ instructions,
      Instruction.decode code instruction.offset = .ok instruction := by
  induction path with
  | nil => simp
  | cons here _ ih =>
    have start := Instruction.offset_of_decode here
    intro instruction among
    obtain rfl | among := List.mem_cons.mp among
    · rw [start]
      exact here
    · exact ih instruction among

/-- A path has a word at least for each of its instructions. -/
theorem add_length_le (path : Path code first instructions last) :
    first + instructions.length ≤ last := by
  induction path with
  | nil => exact Nat.le_refl _
  | cons here _ ih =>
    have forward := Instruction.lt_next_of_decode here
    rw [List.length_cons]
    omega

/-- A path that starts in the stream does not leave it. -/
theorem last_le (path : Path code first instructions last) (inside : first ≤ code.size) :
    last ≤ code.size := by
  induction path with
  | nil => exact inside
  | cons here _ ih => exact ih (Instruction.next_le_of_decode here)

/-- The instructions of a path lie between its ends. -/
theorem bounds (path : Path code first instructions last) :
    ∀ instruction ∈ instructions, first ≤ instruction.offset ∧ instruction.next ≤ last := by
  induction path with
  | nil => simp
  | cons here rest ih =>
    have start := Instruction.offset_of_decode here
    have forward := Instruction.lt_next_of_decode here
    have behind := rest.add_length_le
    intro instruction among
    obtain rfl | among := List.mem_cons.mp among
    · omega
    · have := ih instruction among
      omega

/-- A path starts at its first instruction. -/
theorem start_eq (path : Path code first instructions last) :
    (instructions[0]?.map Instruction.offset).getD last = first := by
  cases path with
  | nil => rfl
  | cons here _ => exact Instruction.offset_of_decode here

/-- In a path each instruction ends where the next one starts, the last one at the end. -/
theorem next_eq (path : Path code first instructions last) {index : Nat} {instruction : Instruction}
    (here : instructions[index]? = some instruction) :
    (instructions[index + 1]?.map Instruction.offset).getD last = instruction.next := by
  induction path generalizing index with
  | nil => cases here
  | cons _ rest ih =>
    cases index with
    | zero =>
      cases here
      exact rest.start_eq
    | succ index => exact ih here

/-- Each place between the ends of a path belongs to one of its instructions. -/
theorem covered (path : Path code first instructions last) {place : Nat} (lower : first ≤ place)
    (upper : place < last) :
    ∃ (index : Nat) (instruction : Instruction), instructions[index]? = some instruction ∧
      instruction.offset ≤ place ∧ place < instruction.next := by
  induction path with
  | nil => omega
  | @cons _ _ instruction _ here _ ih =>
    have start := Instruction.offset_of_decode here
    by_cases inside : place < instruction.next
    · exact ⟨0, instruction, rfl, by omega, inside⟩
    · obtain ⟨index, found, at_, bounds⟩ := ih (by omega) upper
      exact ⟨index + 1, found, at_, bounds⟩

/-- An instruction of a path ends before those that come later start. -/
theorem ordered (path : Path code first instructions last) {earlier later : Nat}
    {before after : Instruction} (order : earlier < later)
    (one : instructions[earlier]? = some before) (two : instructions[later]? = some after) :
    before.next ≤ after.offset := by
  induction path generalizing earlier later with
  | nil => cases one
  | cons _ rest ih =>
    obtain ⟨later, rfl⟩ : ∃ rank, later = rank + 1 := ⟨later - 1, by omega⟩
    cases earlier with
    | zero =>
      cases one
      exact (rest.bounds after (List.mem_of_getElem? two)).1
    | succ earlier => exact ih (by omega) one two

/-- The instructions of a path start one behind the other, and all before its end. -/
theorem offsets_pairwise (path : Path code first instructions last) :
    (instructions.map Instruction.offset ++ [last]).Pairwise (· < ·) := by
  induction path with
  | nil => exact List.pairwise_singleton _ _
  | @cons offset last instruction rest here tail ih =>
    have start := Instruction.offset_of_decode here
    have forward := Instruction.lt_next_of_decode here
    have behind := tail.add_length_le
    refine List.pairwise_cons.mpr ⟨?_, ih⟩
    intro place among
    obtain among | among := List.mem_append.mp among
    · obtain ⟨later, listed, rfl⟩ := List.mem_map.mp among
      have bounds := tail.bounds later listed
      omega
    · rw [List.mem_singleton.mp among]
      omega

/-- No place belongs to two instructions of a path. -/
theorem index_unique (path : Path code first instructions last) {place index index' : Nat}
    {instruction instruction' : Instruction} (one : instructions[index]? = some instruction)
    (two : instructions[index']? = some instruction')
    (inside : instruction.offset ≤ place ∧ place < instruction.next)
    (inside' : instruction'.offset ≤ place ∧ place < instruction'.next) : index = index' := by
  obtain order | same | order := Nat.lt_trichotomy index index'
  · have := path.ordered order one two
    omega
  · exact same
  · have := path.ordered order two one
    omega

/-- A path that starts where another one ends continues it. -/
theorem append {middle : Nat} {rest : List Instruction}
    (path : Path code first instructions middle) (behind : Path code middle rest last) :
    Path code first (instructions ++ rest) last := by
  induction path with
  | nil => exact behind
  | cons here _ ih => exact cons here (ih behind)

/-- A path is cut in two after any number of instructions. -/
theorem split (path : Path code first instructions last) (count : Nat) :
    ∃ middle, Path code first (instructions.take count) middle ∧
      Path code middle (instructions.drop count) last := by
  induction path generalizing count with
  | nil offset => exact ⟨offset, by simpa using nil offset, by simpa using nil offset⟩
  | @cons offset _ _ _ here rest ih =>
    cases count with
    | zero => exact ⟨offset, nil offset, cons here rest⟩
    | succ count =>
      obtain ⟨middle, before, after⟩ := ih count
      exact ⟨middle, cons here before, after⟩

/-- A path leads to each of its instructions. -/
theorem up_to (path : Path code first instructions last) {index : Nat} {instruction : Instruction}
    (here : instructions[index]? = some instruction) :
    Path code first (instructions.take index) instruction.offset := by
  obtain ⟨middle, before, after⟩ := path.split index
  have start := after.start_eq
  rw [List.getElem?_drop, Nat.add_zero, here] at start
  rw [show instruction.offset = middle from start]
  exact before

/-- A path leads through every stream that has the same words in its instructions, and in the
headers that these read. -/
theorem transfer (path : Path code first instructions last)
    (own : ∀ instruction ∈ instructions, ∀ place, instruction.offset ≤ place →
      place < instruction.next → other[place]? = code[place]?)
    (header : ∀ instruction ∈ instructions, ∀ place,
      Instruction.ReadsHeader code instruction.offset place → other[place]? = code[place]?) :
    Path other first instructions last := by
  induction path with
  | nil offset => exact nil offset
  | cons here _ ih =>
    obtain rfl := Instruction.offset_of_decode here
    apply cons
    · exact Instruction.decode_of_same here (own _ List.mem_cons_self) (header _ List.mem_cons_self)
    · exact ih (fun _ among => own _ (List.mem_cons_of_mem _ among))
        (fun _ among => header _ (List.mem_cons_of_mem _ among))

/-- A path leads through every longer stream. -/
theorem extend (path : Path code first instructions last)
    (same : ∀ place < code.size, other[place]? = code[place]?) :
    Path other first instructions last := by
  apply path.transfer
  · intro instruction among place _ upper
    have inside := Instruction.next_le_of_decode (path.decoded instruction among)
    exact same place (by omega)
  · intro instruction _ place reads
    exact same place reads.lt_size

/-- The walk over a stream ends at an offset: there the stream ends, or an instruction cannot be
decoded. -/
def Ends (code : Array Word) (offset : Nat) : Prop :=
  offset = code.size ∨
    offset < code.size ∧ ∃ fault, Instruction.decode code offset = .error fault

/-- From every offset in the stream a path leads to where the walk ends. -/
theorem exists_to_end (code : Array Word) (first : Nat) (inside : first ≤ code.size) :
    ∃ instructions last, Path code first instructions last ∧ Ends code last := by
  -- The words that are left decide how often the walk can go on.
  induction remaining : code.size - first using Nat.strongRecOn generalizing first with
  | ind _ ih =>
    by_cases more : first < code.size
    · cases here : Instruction.decode code first with
      | error fault => exact ⟨[], first, nil first, Or.inr ⟨more, fault, here⟩⟩
      | ok instruction =>
        have forward := Instruction.lt_next_of_decode here
        obtain ⟨rest, last, path, ends⟩ := ih (code.size - instruction.next) (by omega)
          instruction.next (Instruction.next_le_of_decode here) rfl
        exact ⟨instruction :: rest, last, cons here path, ends⟩
    · exact ⟨[], first, nil first, Or.inl (by omega)⟩

end Path

end Disassembler
