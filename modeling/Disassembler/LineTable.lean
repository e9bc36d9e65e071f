import Disassembler.Image

/-!
# The line at an offset

The line table is searched by halving a window of entries. The search never
looks at whether the table ascends: it follows the comparisons that it makes,
also in a table that does not. In a table that never descends it ends at the
last entry that starts at or before the position.
-/

namespace Disassembler

/-- The source lines of an image, by the offsets at which they start. -/
abbrev LineTable := Array LineEntry

namespace LineTable

/-- A position as the search compares it: a 64-bit pattern read as a signed number. -/
def signedPosition (position : Nat) : Int := (position : Int).bmod UInt64.size

/-- The place that the search ends at when the window holds `size` entries from `first` on. -/
def search (table : LineTable) (position : Int) (first size : Nat)
    (inside : 0 < size ∧ first + size ≤ table.size) : Fin table.size :=
  if wide : 1 < size then
    let half := size / 2
    have bound : first + half < table.size := by omega
    if table[first + half].start.toInt ≤ position then
      search table position (first + half) (size - half) (by omega)
    else search table position first half (by omega)
  else ⟨first, by omega⟩
termination_by size

/-- The place of the entry that is active at a position, in a table with entries. -/
def place (table : LineTable) (nonempty : 0 < table.size) (position : Nat) : Fin table.size :=
  search table (signedPosition position) 0 table.size (by omega)

/-- The entry that is active at a position, in a table with entries. -/
def locate (table : LineTable) (nonempty : 0 < table.size) (position : Nat) : LineEntry :=
  table[place table nonempty position]

/-- The entry that is active at a position, if the table has entries. -/
def locate? (table : LineTable) (position : Nat) : Option LineEntry :=
  if nonempty : 0 < table.size then some (locate table nonempty position) else none

/-- The text that reports a search in a table without entries. -/
def emptyMessage : String := "line info table must not be empty"

/-- A position below two to the power 63 is compared as it is. -/
theorem signedPosition_of_lt {position : Nat} (small : position < UInt64.size / 2) :
    signedPosition position = position := by
  unfold signedPosition
  exact Int.bmod_eq_of_le (by omega) (by omega)

end LineTable

end Disassembler
