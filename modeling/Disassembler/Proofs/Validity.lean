import Disassembler.Image.Validity
import Disassembler.Proofs.LineSearch

/-!
# What makes an image valid

`Image.check` compares each entry of the line table with its predecessor only, and stops at the
first rule that fails. Its verdicts are stated here for the table as a whole: an image is accepted
exactly if its table starts at zero and no entry starts before an earlier one, and each fault is
reported exactly where it is the first.
-/

namespace Disassembler

namespace LineTable

variable {table : LineTable}

/-- The entry behind a place starts before the entry at it. -/
def DescendsBehind (table : LineTable) (place : Nat) : Prop :=
  ∃ before after, table[place]? = some before ∧ table[place + 1]? = some after ∧
    after.start.toInt < before.start.toInt

/-- The first place behind which a table descends. -/
structure FirstDescent (table : LineTable) (place : Nat) : Prop where
  /-- The table descends there. -/
  descends : table.DescendsBehind place
  /-- It does not descend before. -/
  first : ∀ earlier < place, ¬ table.DescendsBehind earlier

/-- There is one first place only behind which a table descends. -/
theorem FirstDescent.unique {place place' : Nat} (first : table.FirstDescent place)
    (first' : table.FirstDescent place') : place = place' := by
  have notBefore : ¬ place < place' := fun order => first'.first place order first.descends
  have notBehind : ¬ place' < place := fun order => first.first place' order first'.descends
  omega

/-- Behind the first entry a table descends exactly if the second one starts before it. -/
theorem descendsBehind_zero {first second : LineEntry} {rest : List LineEntry} :
    DescendsBehind (first :: second :: rest).toArray 0 ↔
      second.start.toInt < first.start.toInt := by
  simp [DescendsBehind]

/-- Behind later entries a table descends as it does without its first entry. -/
theorem descendsBehind_succ {first : LineEntry} {rest : List LineEntry} {place : Nat} :
    DescendsBehind (first :: rest).toArray (place + 1) ↔ DescendsBehind rest.toArray place := by
  simp [DescendsBehind]

/-- A table that does not descend behind its first entry first descends where the rest of it
does. -/
theorem firstDescent_succ {first : LineEntry} {rest : List LineEntry} {place : Nat}
    (ordered : ¬ DescendsBehind (first :: rest).toArray 0) :
    FirstDescent (first :: rest).toArray (place + 1) ↔ FirstDescent rest.toArray place := by
  constructor
  · rintro ⟨descends, before⟩
    refine ⟨descendsBehind_succ.mp descends, fun earlier order => ?_⟩
    exact fun descends => before (earlier + 1) (by omega) (descendsBehind_succ.mpr descends)
  · rintro ⟨descends, before⟩
    refine ⟨descendsBehind_succ.mpr descends, fun earlier order => ?_⟩
    cases earlier with
    | zero => exact ordered
    | succ earlier =>
      exact fun descends => before earlier (by omega) (descendsBehind_succ.mp descends)

end LineTable

namespace LineEntry

/-- An index is reported exactly if it is that of the entry behind the first descent. -/
theorem firstDescent?_eq_some_iff {index found : Nat} {entries : List LineEntry} :
    firstDescent? index entries = some found ↔
      ∃ place, found = index + place ∧ LineTable.FirstDescent entries.toArray place := by
  fun_induction firstDescent? index entries with
  | case1 index earlier later rest descends =>
    have here : LineTable.DescendsBehind (earlier :: later :: rest).toArray 0 :=
      LineTable.descendsBehind_zero.mpr descends
    constructor
    · intro reported
      cases reported
      exact ⟨0, rfl, here, fun _ before => absurd before (Nat.not_lt_zero _)⟩
    · rintro ⟨place, rfl, -, before⟩
      cases place with
      | zero => rfl
      | succ place => exact absurd here (before 0 (by omega))
  | case2 index earlier later rest ordered ih =>
    have notHere : ¬ LineTable.DescendsBehind (earlier :: later :: rest).toArray 0 :=
      mt LineTable.descendsBehind_zero.mp ordered
    rw [ih]
    constructor
    · rintro ⟨place, rfl, descent⟩
      exact ⟨place + 1, by omega, (LineTable.firstDescent_succ notHere).mpr descent⟩
    · rintro ⟨place, rfl, descent⟩
      cases place with
      | zero => exact absurd descent.descends notHere
      | succ place =>
        exact ⟨place, by omega, (LineTable.firstDescent_succ notHere).mp descent⟩
  | case3 =>
    rename_i entries _ short
    constructor
    · intro reported
      cases reported
    · rintro ⟨place, -, ⟨before, after, -, found, -⟩, -⟩
      rcases entries with _ | ⟨earlier, _ | ⟨later, rest⟩⟩
      · simp at found
      · simp at found
      · exact absurd rfl (short earlier later rest)

end LineEntry

namespace Image

variable {image : Image}

/-- The first source line starts at the start of the stream. -/
def StartsAtZero (image : Image) : Prop :=
  ∃ first, image.lines[0]? = some first ∧ first.start = 0

/-- The list of the source lines of an image whose first one is known. -/
theorem exists_rest_of_first {first : LineEntry} (found : image.lines[0]? = some first) :
    ∃ rest, image.lines.toList = first :: rest := by
  rw [← Array.getElem?_toList] at found
  cases entries : image.lines.toList with
  | nil =>
    rw [entries] at found
    cases found
  | cons head rest =>
    rw [entries] at found
    cases found
    exact ⟨rest, rfl⟩

/-- An image without source lines is reported as such. -/
theorem check_of_no_lines (empty : image.lines = #[]) : image.check = .error .noLines := by
  unfold check
  rw [empty]

/-- A first source line that does not start at zero is reported with its start. -/
theorem check_of_late_start {first : LineEntry} (found : image.lines[0]? = some first)
    (late : first.start ≠ 0) : image.check = .error (.lateStart first.start) := by
  obtain ⟨rest, entries⟩ := exists_rest_of_first found
  unfold check
  simp only [entries]
  rw [if_pos late]

/-- If the first source line starts at zero, the first descent of the table decides. -/
theorem check_of_startsAtZero (zero : image.StartsAtZero) :
    image.check = match LineEntry.firstDescent? 1 image.lines.toList with
      | some index => .error (.descent index)
      | none => .ok () := by
  obtain ⟨first, found, start⟩ := zero
  obtain ⟨rest, entries⟩ := exists_rest_of_first found
  have notLate : ¬ first.start ≠ 0 := fun late => late start
  cases reported : LineEntry.firstDescent? 1 image.lines.toList <;>
    rw [entries] at reported <;>
    simp only [check, entries, if_neg notLate, reported]

/-- A table that starts at zero and never descends is accepted. -/
theorem check_of_ascends (zero : image.StartsAtZero) (ascends : LineTable.Ascends image.lines) :
    image.check = .ok () := by
  have never := (LineEntry.firstDescent?_eq_none_iff 1 _).mpr
    (LineTable.ascends_iff_pairwise.mp ascends)
  rw [check_of_startsAtZero zero, never]

/-- A table that starts at zero and descends is reported with the first entry that starts before its
predecessor. -/
theorem check_of_descends (zero : image.StartsAtZero) (descends : ¬ LineTable.Ascends image.lines) :
    ∃ place, LineTable.FirstDescent image.lines place ∧
      image.check = .error (.descent (place + 1)) := by
  rw [check_of_startsAtZero zero]
  cases reported : LineEntry.firstDescent? 1 image.lines.toList with
  | none =>
    have ordered := (LineEntry.firstDescent?_eq_none_iff 1 _).mp reported
    exact absurd (LineTable.ascends_iff_pairwise.mpr ordered) descends
  | some index =>
    obtain ⟨place, rfl, descent⟩ := LineEntry.firstDescent?_eq_some_iff.mp reported
    exact ⟨place, descent, by rw [Nat.add_comm]⟩

/-- An accepted image has source lines that start at zero and never descend. -/
theorem ascends_of_check (valid : image.check = .ok ()) :
    image.StartsAtZero ∧ LineTable.Ascends image.lines := by
  cases found : image.lines[0]? with
  | none =>
    have empty : image.lines = #[] := by
      apply Array.eq_empty_of_size_eq_zero
      have outside := Array.getElem?_eq_none_iff.mp found
      omega
    rw [check_of_no_lines empty] at valid
    cases valid
  | some first =>
    by_cases start : first.start = 0
    · have zero : image.StartsAtZero := ⟨first, found, start⟩
      refine ⟨zero, Classical.byContradiction fun descends => ?_⟩
      obtain ⟨place, -, fault⟩ := check_of_descends zero descends
      rw [fault] at valid
      cases valid
    · rw [check_of_late_start found start] at valid
      cases valid

end Image

end Disassembler
