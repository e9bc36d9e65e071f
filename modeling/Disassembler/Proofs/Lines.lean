/-!
# Lines

A text in which each line has a line feed behind it has as many line feeds as lines and as there are
inside the lines. Where there is none inside, the lines are what is between the line feeds.
-/

namespace Disassembler.Lines

/-- Lines, each with a line feed behind it. -/
def joined (lines : List (List Char)) : List Char := lines.flatMap (· ++ ['\n'])

variable {lines : List (List Char)}

/-- A line feed is behind each line, and all others are inside the lines. -/
theorem count_joined (lines : List (List Char)) :
    (joined lines).count '\n' = lines.length + lines.flatten.count '\n' := by
  induction lines with
  | nil => rfl
  | cons line rest ih =>
    have behind : ['\n'].count '\n' = 1 := rfl
    rw [joined] at ih
    rw [joined, List.flatMap_cons, List.count_append, List.count_append, behind, ih,
      List.length_cons, List.flatten_cons, List.count_append]
    omega

/-- There are as many line feeds as lines exactly if there is none inside a line. -/
theorem count_joined_eq_iff :
    (joined lines).count '\n' = lines.length ↔ ∀ line ∈ lines, '\n' ∉ line := by
  have inside : lines.flatten.count '\n' = 0 ↔ ∀ line ∈ lines, '\n' ∉ line := by
    rw [List.count_eq_zero, List.mem_flatten, not_exists]
    exact forall_congr' fun _ => not_and
  have count := count_joined lines
  rw [← inside]
  omega

/-- Lines without line feeds inside are what is between the line feeds of a text. -/
theorem splitOn_joined (plain : ∀ line ∈ lines, '\n' ∉ line) :
    (joined lines).splitOn '\n' = lines ++ [[]] := by
  induction lines with
  | nil => rfl
  | cons line rest ih =>
    obtain ⟨first, others⟩ := List.forall_mem_cons.mp plain
    rw [joined, List.flatMap_cons, List.append_assoc, List.singleton_append,
      List.splitOn_append_cons_self_of_not_mem first]
    exact congrArg (line :: ·) (ih others)

/-- There is one more part between the line feeds of a text than there are line feeds. -/
theorem length_splitOn (text : List Char) :
    (text.splitOn '\n').length = text.count '\n' + 1 := by
  induction text with
  | nil => rfl
  | cons c rest ih =>
    rw [List.splitOn_cons_eq_if_modifyHead, List.count_cons]
    split
    · rw [List.length_cons, ih]
    · rw [List.length_modifyHead, ih]

/-- Lines without line feeds inside are told by their text. -/
theorem joined_inj {lines' : List (List Char)} (plain : ∀ line ∈ lines, '\n' ∉ line)
    (plain' : ∀ line ∈ lines', '\n' ∉ line) (same : joined lines = joined lines') :
    lines = lines' := by
  have split := splitOn_joined plain
  rw [same, splitOn_joined plain'] at split
  exact (List.append_left_inj [[]]).mp split.symm

end Disassembler.Lines
