import Disassembler.Image

/-!
# Valid images

An image is valid if its line table has entries, starts at offset zero and
never descends. `Image.check` finds the first rule that fails, and for a table
that descends the first entry that starts before its predecessor.
-/

namespace Disassembler

/-- Why an image is not valid. -/
inductive ImageFault where
  /-- The line table has no entries. -/
  | noLines
  /-- An entry of the line table starts before its predecessor. -/
  | descent (index : Nat)
  /-- The first entry of the line table does not start at zero. -/
  | lateStart (start : Word)
  deriving DecidableEq

/-- The text that reports an invalid image. -/
def ImageFault.message : ImageFault → String
  | .noLines => "line info table is empty"
  | .descent index =>
    "line info entry " ++ toString index ++ " starts before its predecessor"
  | .lateStart start =>
    "line info starts at offset " ++ start.text ++ ", expected 0"

namespace LineEntry

/-- The place of the first entry that starts before its predecessor, where `index` is the place of
the second entry of the list. -/
def firstDescent? (index : Nat) : List LineEntry → Option Nat
  | earlier :: later :: rest =>
    if later.start.toInt < earlier.start.toInt then some index
    else firstDescent? (index + 1) (later :: rest)
  | _ => none

/-- No entry starts before its predecessor exactly if the starts never descend. -/
theorem firstDescent?_eq_none_iff (index : Nat) (entries : List LineEntry) :
    firstDescent? index entries = none ↔
      entries.Pairwise fun earlier later => earlier.start.toInt ≤ later.start.toInt := by
  fun_induction firstDescent? index entries with
  | case1 index earlier later rest descends =>
    simp only [reduceCtorEq, List.pairwise_cons, List.mem_cons, forall_eq_or_imp, false_iff]
    omega
  | case2 index earlier later rest ordered ih =>
    rw [ih, List.pairwise_cons (a := earlier)]
    refine ⟨fun tail => ⟨?_, tail⟩, And.right⟩
    intro other membership
    rcases List.mem_cons.mp membership with rfl | inner
    · omega
    · have := (List.pairwise_cons.mp tail).1 other inner
      omega
  | case3 =>
    rename_i entries _ short
    match entries, short with
    | [], _ => simp
    | [only], _ => simp
    | earlier :: later :: rest, short => exact absurd rfl (short earlier later rest)

end LineEntry

/-- Reports the first rule that an image breaks, if it breaks one. -/
def Image.check (image : Image) : Except ImageFault Unit :=
  match image.lines.toList with
  | [] => .error .noLines
  | first :: rest =>
    if first.start ≠ 0 then .error (.lateStart first.start)
    else match LineEntry.firstDescent? 1 (first :: rest) with
      | some index => .error (.descent index)
      | none => .ok ()

end Disassembler
