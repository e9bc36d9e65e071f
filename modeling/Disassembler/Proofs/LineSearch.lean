import Disassembler.LineTable

/-!
# The search finds the active line

The entry that is active at a position starts there or before it, and the entry behind it starts
later. In a table that never descends there is at most one such entry, also where several entries
start at the same offset: it is the last of them. The halving search ends at an active entry of
every table whose first entry starts at the position or before it. In every other table with
entries, in whatever order they are, it ends where its comparisons settle, and it moves forward
only when the position does.
-/

namespace Disassembler

namespace LineTable

variable {table : LineTable} {position position' : Int} {index index' : Nat}

/-- The entry at a place of a table is active at a position: it has started there, and the entry
behind it, if there is one, has not. -/
structure Active (table : LineTable) (position : Int) (index : Nat) : Prop where
  /-- The entry has started. -/
  started : ∃ entry, table[index]? = some entry ∧ entry.start.toInt ≤ position
  /-- The next entry has not. -/
  pending : ∀ later, table[index + 1]? = some later → position < later.start.toInt

/-- No entry of a table starts before an earlier one. -/
def Ascends (table : LineTable) : Prop :=
  ∀ (earlier later : Nat) (before after : LineEntry), earlier ≤ later →
    table[earlier]? = some before → table[later]? = some after →
      before.start.toInt ≤ after.start.toInt

/-- A table never descends exactly if its entries are in order as a list. -/
theorem ascends_iff_pairwise :
    table.Ascends ↔
      table.toList.Pairwise fun before after => before.start.toInt ≤ after.start.toInt := by
  rw [List.pairwise_iff_getElem]
  constructor
  · intro ascends earlier later inside inside' order
    exact ascends earlier later _ _ (Nat.le_of_lt order)
      (Array.getElem?_eq_getElem inside) (Array.getElem?_eq_getElem inside')
  · intro ordered earlier later before after order found found'
    obtain ⟨inside, rfl⟩ := Array.getElem?_eq_some_iff.mp found
    obtain ⟨inside', rfl⟩ := Array.getElem?_eq_some_iff.mp found'
    obtain strict | rfl := Nat.lt_or_eq_of_le order
    · exact ordered earlier later inside inside' strict
    · exact Int.le_refl _

/-- The entry at a place of a table starts at a position or before it. -/
def Started (table : LineTable) (position : Int) (index : Nat) : Prop :=
  ∃ entry, table[index]? = some entry ∧ entry.start.toInt ≤ position

/-- An entry that has started has started at every later position. -/
theorem Started.later (started : table.Started position index) (order : position ≤ position') :
    table.Started position' index := by
  obtain ⟨entry, found, reached⟩ := started
  exact ⟨entry, found, Int.le_trans reached order⟩

/-- In a table that never descends, an entry that has started does not come behind one that has
not. -/
theorem Started.index_le (ascends : table.Ascends) (started : table.Started position index)
    (pending : ∀ later, table[index' + 1]? = some later → position < later.start.toInt) :
    index ≤ index' := by
  obtain ⟨entry, found, reached⟩ := started
  have inside : index < table.size := (Array.getElem?_eq_some_iff.mp found).1
  apply Nat.le_of_not_lt
  intro before
  have next : table[index' + 1]? = some table[index' + 1] := Array.getElem?_eq_getElem (by omega)
  have late := pending _ next
  have early := ascends (index' + 1) index _ _ before next found
  omega

/-- In a table that never descends a later position has no earlier active entry. -/
theorem Active.index_le (ascends : table.Ascends) (active : table.Active position index)
    (active' : table.Active position' index') (order : position ≤ position') :
    index ≤ index' := by
  have started : table.Started position' index := Started.later active.started order
  exact started.index_le ascends active'.pending

/-- In a table that never descends one entry only is active at a position. -/
theorem Active.index_eq (ascends : table.Ascends) (active : table.Active position index)
    (active' : table.Active position index') : index = index' := by
  have forward := active.index_le ascends active' (Int.le_refl _)
  have backward := active'.index_le ascends active (Int.le_refl _)
  exact Nat.le_antisymm forward backward

/-- The comparisons of a search settle at a place: the entry there has started, unless it is the
first one, and the entry behind it, if there is one, has not. -/
structure Settled (table : LineTable) (position : Int) (index : Nat) : Prop where
  /-- The entry has started, or there was no need to compare it. -/
  started : index = 0 ∨ table.Started position index
  /-- The next entry has not started. -/
  pending : ∀ later, table[index + 1]? = some later → position < later.start.toInt

/-- A search settles at an active entry, if the first entry has started. -/
theorem Settled.active (settled : table.Settled position index)
    (first : table.Started position 0) : table.Active position index := by
  obtain rfl | started := settled.started
  · exact ⟨first, settled.pending⟩
  · exact ⟨started, settled.pending⟩

/-- The place of the last entry that has started at a position, or the first place if no entry
has. -/
def LastStarted (table : LineTable) (position : Int) (index : Nat) : Prop :=
  table.Started position index ∧ (∀ other, table.Started position other → other ≤ index) ∨
    index = 0 ∧ ∀ other, ¬ table.Started position other

/-- In a table that never descends a search settles at the last entry that has started. -/
theorem Settled.lastStarted (ascends : table.Ascends) (settled : table.Settled position index) :
    table.LastStarted position index := by
  have last : ∀ other, table.Started position other → other ≤ index :=
    fun other started => started.index_le ascends settled.pending
  by_cases started : table.Started position index
  · exact Or.inl ⟨started, last⟩
  · have zero : index = 0 := settled.started.resolve_right started
    refine Or.inr ⟨zero, ?_⟩
    intro other started'
    have same : other = index := by have := last other started'; omega
    exact started (same ▸ started')

/-- The search ends inside its window. -/
theorem search_bounds (table : LineTable) (position : Int) (first size : Nat)
    (inside : 0 < size ∧ first + size ≤ table.size) :
    first ≤ (search table position first size inside).val ∧
      (search table position first size inside).val < first + size := by
  fun_induction search table position first size inside with
  | case1 first size inside wide half bound reached ih =>
    have narrower : half = size / 2 := rfl
    omega
  | case2 first size inside wide half bound missed ih =>
    have narrower : half = size / 2 := rfl
    omega
  | case3 first size inside narrow =>
    show first ≤ first ∧ first < first + size
    omega

/-- The search keeps a window whose end has not started, and whose first entry has, unless that is
the first entry of the table. So it ends where its comparisons settle. -/
theorem search_settled (table : LineTable) (position : Int) (first size : Nat)
    (inside : 0 < size ∧ first + size ≤ table.size)
    (started : first = 0 ∨ table.Started position first)
    (pending : ∀ later, table[first + size]? = some later → position < later.start.toInt) :
    table.Settled position (search table position first size inside) := by
  fun_induction search table position first size inside with
  | case1 first size inside wide half bound reached ih =>
    have here : table[first + half]? = some table[first + half] := Array.getElem?_eq_getElem bound
    have same : first + half + (size - half) = first + size := by omega
    rw [same] at ih
    exact ih (Or.inr ⟨_, here, reached⟩) pending
  | case2 first size inside wide half bound missed ih =>
    have here : table[first + half]? = some table[first + half] := Array.getElem?_eq_getElem bound
    apply ih started
    intro later found
    have same : table[first + half] = later := Option.some.inj (here.symm.trans found)
    rw [← same]
    omega
  | case3 first size inside narrow =>
    have single : size = 1 := by omega
    rw [single] at pending
    exact ⟨started, pending⟩

/-- The place of a position is where the comparisons of a search for it settle. -/
theorem place_settled (nonempty : 0 < table.size) (offset : Nat) :
    table.Settled (signedPosition offset) (place table nonempty offset) := by
  apply search_settled table (signedPosition offset) 0 table.size (by omega) (Or.inl rfl)
  intro later found
  have outside : table[0 + table.size]? = none := Array.getElem?_eq_none (by omega)
  rw [outside] at found
  cases found

/-- The place of a position is that of an active entry, if the first entry has started there. -/
theorem place_active (nonempty : 0 < table.size) {offset : Nat}
    (small : offset < UInt64.size / 2) (started : table[0].start.toInt ≤ offset) :
    table.Active offset (place table nonempty offset) := by
  have settled := place_settled nonempty offset
  rw [signedPosition_of_lt small] at settled
  exact settled.active ⟨_, Array.getElem?_eq_getElem nonempty, started⟩

/-- In a table with one entry the search ends at that entry, wherever it starts. -/
theorem locate_singleton (entry : LineEntry) (nonempty : 0 < (#[entry] : LineTable).size)
    (offset : Nat) : locate #[entry] nonempty offset = entry := by
  have only : place #[entry] nonempty offset = ⟨0, nonempty⟩ :=
    Fin.eq_of_val_eq (Nat.lt_one_iff.mp (place #[entry] nonempty offset).isLt)
  show (#[entry] : LineTable)[place #[entry] nonempty offset] = entry
  simp only [only]
  rfl

/-- The entries that a search still has to tell apart. -/
structure Window where
  /-- The place of the first one. -/
  first : Nat
  /-- The number of entries. -/
  size : Nat

/-- One turn of a search as a loop. It compares the entry in the middle of the window, and keeps the
part of the window on its side of the position. There is no turn if the table has no such entry. -/
def turn? (table : LineTable) (position : Int) (window : Window) : Option Window := do
  let half := window.size / 2
  let middle ← table[window.first + half]?
  if middle.start.toInt ≤ position then some ⟨window.first + half, window.size - half⟩
  else some ⟨window.first, half⟩

/-- The loop of a search ends at a place after a number of turns. -/
inductive Halves (table : LineTable) (position : Int) : Nat → Window → Nat → Prop where
  /-- There is nothing left to tell apart. -/
  | over {window : Window} : window.size ≤ 1 → Halves table position 0 window window.first
  /-- The loop takes a turn. -/
  | turn {turns index : Nat} {window following : Window} : 1 < window.size →
      turn? table position window = some following →
      Halves table position turns following index → Halves table position (turns + 1) window index

/-- A turn at an entry that has started goes on from that entry. -/
theorem turn?_of_started {first size : Nat} (bound : first + size / 2 < table.size)
    (reached : table[first + size / 2].start.toInt ≤ position) :
    table.turn? position ⟨first, size⟩ = some ⟨first + size / 2, size - size / 2⟩ := by
  unfold turn?
  simp only [Array.getElem?_eq_getElem bound, Option.bind_eq_bind, Option.bind_some,
    if_pos reached]

/-- A turn at an entry that has not started goes on before that entry. -/
theorem turn?_of_pending {first size : Nat} (bound : first + size / 2 < table.size)
    (missed : ¬ table[first + size / 2].start.toInt ≤ position) :
    table.turn? position ⟨first, size⟩ = some ⟨first, size / 2⟩ := by
  unfold turn?
  simp only [Array.getElem?_eq_getElem bound, Option.bind_eq_bind, Option.bind_some,
    if_neg missed]

/-- The loop can take all of its turns, which are fewer than the entries of its window, and ends
where the search does. -/
theorem exists_halves (table : LineTable) (position : Int) (first size : Nat)
    (inside : 0 < size ∧ first + size ≤ table.size) :
    ∃ turns < size,
      table.Halves position turns ⟨first, size⟩ (search table position first size inside) := by
  fun_induction search table position first size inside with
  | case1 first size inside wide half bound reached ih =>
    obtain ⟨turns, fewer, loops⟩ := ih
    exact ⟨turns + 1, by omega, .turn wide (turn?_of_started bound reached) loops⟩
  | case2 first size inside wide half bound missed ih =>
    obtain ⟨turns, fewer, loops⟩ := ih
    exact ⟨turns + 1, by omega, .turn wide (turn?_of_pending bound missed) loops⟩
  | case3 first size inside narrow => exact ⟨0, inside.1, .over (Nat.le_of_not_lt narrow)⟩

/-- A search for any position in any table with entries ends, after fewer turns than the table has
entries, and finds an entry: the comparisons with it and with the entry behind it settle the
position between the two. In a table that never descends it is the last entry that has started
there, or the first one if no entry has. -/
theorem locate?_settled (table : LineTable) (nonempty : 0 < table.size) (position : Nat) :
    ∃ turns index entry,
      table.Halves (signedPosition position) turns ⟨0, table.size⟩ index ∧
        turns < table.size ∧ table[index]? = some entry ∧
        table.locate? position = some entry ∧
        table.Settled (signedPosition position) index ∧
        (table.Ascends → table.LastStarted (signedPosition position) index) := by
  have settled := place_settled nonempty position
  have inside : 0 < table.size ∧ 0 + table.size ≤ table.size := by omega
  obtain ⟨turns, fewer, loops⟩ :=
    exists_halves table (signedPosition position) 0 table.size inside
  have found : table[(place table nonempty position).val]? =
      some (locate table nonempty position) := Array.getElem?_eq_getElem _
  have located : table.locate? position = some (locate table nonempty position) :=
    dif_pos nonempty
  exact ⟨turns, _, _, loops, fewer, found, located, settled,
    fun ascends => settled.lastStarted ascends⟩

/-- Four entries, two of which start at the same offset. -/
def repeated : LineTable := #[⟨0, 1, 0⟩, ⟨5, 2, 0⟩, ⟨5, 3, 0⟩, ⟨12, 1, 0⟩]

/-- Of two entries that start at the same offset, a search for that offset finds the later one. -/
theorem locate?_settled_repeated : 0 < repeated.size ∧ repeated.Ascends ∧
    repeated.locate? 5 = some ⟨5, 3, 0⟩ ∧ ∃ turns index,
      repeated.Halves (signedPosition 5) turns ⟨0, repeated.size⟩ index ∧
        turns < repeated.size ∧ repeated[index]? = some ⟨5, 3, 0⟩ ∧
        repeated.Settled (signedPosition 5) index ∧
        repeated.LastStarted (signedPosition 5) index := by
  have nonempty : 0 < repeated.size := by decide
  have ascends : repeated.Ascends := ascends_iff_pairwise.mpr (by decide)
  have later : repeated.locate? 5 = some ⟨5, 3, 0⟩ := by decide +kernel
  obtain ⟨turns, index, entry, loops, fewer, found, located, settled, last⟩ :=
    locate?_settled repeated nonempty 5
  have same : entry = ⟨5, 3, 0⟩ := Option.some.inj (located.symm.trans later)
  exact ⟨nonempty, ascends, later, turns, index, loops, fewer, same ▸ found, settled,
    last ascends⟩

/-- Where one search goes on from an entry, a search for a later position does so as well, so it
ends at the same place or at a later one, in whatever order the entries are. -/
theorem search_le_search (table : LineTable) {position position' : Int}
    (order : position ≤ position') (first size : Nat)
    (inside : 0 < size ∧ first + size ≤ table.size) :
    (search table position first size inside).val ≤
      (search table position' first size inside).val := by
  fun_induction search table position first size inside with
  | case1 first size inside wide half bound reached ih =>
    have reached' : table[first + half].start.toInt ≤ position' := Int.le_trans reached order
    rw [search.eq_def table position' first size, dif_pos wide, if_pos reached']
    exact ih
  | case2 first size inside wide half bound missed ih =>
    rw [search.eq_def table position' first size, dif_pos wide]
    by_cases reached' : table[first + half].start.toInt ≤ position'
    · -- The windows part here, and all of the later position's one lies behind the other.
      rw [if_pos reached']
      have before := (search_bounds table position first half (by omega)).2
      have behind := (search_bounds table position' (first + half) (size - half) (by omega)).1
      exact Nat.le_of_lt (Nat.lt_of_lt_of_le before behind)
    · rw [if_neg reached']
      exact ih
  | case3 first size inside narrow =>
    exact (search_bounds table position' first size inside).1

/-- A search for a later position ends at the same place or at a later one, in whatever order the
entries are. In a table that never descends the entry there does not start earlier either. -/
theorem place_le_place (table : LineTable) (nonempty : 0 < table.size) {position later : Nat}
    (order : signedPosition position ≤ signedPosition later) :
    (place table nonempty position).val ≤ (place table nonempty later).val ∧
      (table.Ascends → (locate table nonempty position).start.toInt ≤
        (locate table nonempty later).start.toInt) := by
  have forward : (place table nonempty position).val ≤ (place table nonempty later).val :=
    search_le_search table order 0 table.size (by omega)
  refine ⟨forward, ?_⟩
  intro ascends
  exact ascends _ _ _ _ forward (Array.getElem?_eq_getElem _) (Array.getElem?_eq_getElem _)

/-- The largest 64-bit position is compared as minus one, so a search for it does not end behind one
for the position where two entries start. -/
theorem place_le_place_wrapped : 0 < repeated.size ∧ repeated.Ascends ∧
    signedPosition 18446744073709551615 ≤ signedPosition 5 ∧
    ∀ nonempty : 0 < repeated.size,
      (place repeated nonempty 18446744073709551615).val ≤ (place repeated nonempty 5).val ∧
        (locate repeated nonempty 18446744073709551615).start.toInt ≤
          (locate repeated nonempty 5).start.toInt := by
  have nonempty : 0 < repeated.size := by decide
  have ascends : repeated.Ascends := ascends_iff_pairwise.mpr (by decide)
  have order : signedPosition 18446744073709551615 ≤ signedPosition 5 := by decide
  refine ⟨nonempty, ascends, order, ?_⟩
  intro nonempty
  obtain ⟨forward, starts⟩ := place_le_place repeated nonempty order
  exact ⟨forward, starts ascends⟩

end LineTable

end Disassembler
