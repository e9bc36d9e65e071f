import Disassembler.Proofs.Json.Contexts
import Disassembler.Proofs.Load.Layout
import Mathlib.Data.List.Nodup

/-!
# Parts of what is loaded

A path leads through tables and records to a part of a document. If the document is loaded, so is
the part, and with anything else in its place the document is loaded with that in the part's place,
or the fault of that is reported. Each part of what is loaded is reached by its path, or is there by
default. Each step of a path keeps this. For a record that is written as an
array, the step is one through the object that has the items of the array under the names of the
fields.
-/

namespace Disassembler.Load

open Json

/-- A step from a value to a part of it. -/
inductive Step where
  /-- To the entry of a table at a place. -/
  | entry (place : Nat)
  /-- To the field of a record with a name, and with a place among the fields. -/
  | field (name : String) (place : Nat)

/-- A path leads to a place in a document. In a record that is written as an object a field is the
value of the member with its name, and in one that is written as an array it is the item at its
place. -/
inductive Leads : List Step → Context → Prop where
  /-- No step leads anywhere else. -/
  | here : Leads [] .whole
  /-- To an item of a table. -/
  | entry {path : List Step} {inner : Context} (before behind : List Reading) :
      Leads path inner → Leads (.entry before.length :: path) (.item before inner behind)
  /-- To the value of a member. -/
  | member {path : List Step} {inner : Context} {name : String} {place : Nat}
      (before behind : Members) : Leads path inner →
      Leads (.field name place :: path) (.member before (some name) inner behind)
  /-- To an item of a record. -/
  | position {path : List Step} {inner : Context} {name : String} (before behind : List Reading) :
      Leads path inner → Leads (.field name before.length :: path) (.item before inner behind)

/-- A path that goes on where another one ends leads on from there. -/
theorem Leads.append {path further : List Step} {context inner : Context}
    (leads : Leads path context) (leads' : Leads further inner) :
    Leads (path ++ further) (context.comp inner) := by
  induction leads with
  | here => exact leads'
  | entry before behind _ ih => exact .entry before behind ih
  | member before behind _ ih => exact .member before behind ih
  | position before behind _ ih => exact .position before behind ih

/-- A step leads into a document. -/
theorem Leads.ne_whole {step : Step} {path : List Step} {context : Context}
    (leads : Leads (step :: path) context) : context ≠ .whole := by
  cases leads with
  | entry | member | position => exact Context.noConfusion

variable {α β γ δ : Type}

/-- A field with a value of its own is not given if there is none. -/
theorem Field.of_given_eq_false {name : String} {get : δ → Option β}
    {set : δ → β → δ} {load : Reading → Except Fault β} {draft : δ} :
    (Field.of name get set load).given draft = false ↔ get draft = none := by
  simp [Field.of]

namespace Record

/-- The fields of a record do not meddle with each other, have different names, and are not given at
first. -/
structure Regular (record : Record δ α) : Prop extends record.Orderly where
  /-- No two fields have the same name. -/
  named : (record.fields.map (·.name)).Nodup
  /-- Nothing is given at first. -/
  fresh : ∀ field ∈ record.fields, field.given record.start = false

variable {record : Record δ α} {draft final : δ} {fields : List (Field δ)}
  {items before behind : List Reading}

/-- A field is found by its name. -/
theorem Regular.find?_name (regular : record.Regular) {field : Field δ}
    (among : field ∈ record.fields) :
    record.fields.find? (·.name == field.name) = some field := by
  have some : (record.fields.find? (·.name == field.name)).isSome = true :=
    List.find?_isSome.mpr ⟨field, among, beq_self_eq_true _⟩
  obtain ⟨found, first⟩ := Option.isSome_iff_exists.mp some
  have same : found.name = field.name := by simpa using List.find?_some first
  rw [first, List.inj_on_of_nodup_map regular.named (List.mem_of_find?_eq_some first) among same]

/-- Some fields are still to come, behind those that a draft has. -/
structure Pending (record : Record δ α) (fields : List (Field δ)) (draft : δ) : Prop where
  /-- They are the last ones of the record. -/
  suffix : fields <:+ record.fields
  /-- The draft has none of them. -/
  fresh : ∀ field ∈ fields, field.given draft = false
  /-- It has all others. -/
  given : ∀ field ∈ record.fields, field ∉ fields → field.given draft = true

/-- At first all fields are to come. -/
theorem Regular.pending (regular : record.Regular) : record.Pending record.fields record.start where
  suffix := List.suffix_rfl
  fresh := regular.fresh
  given := fun _ among absent => absurd among absent

/-- The fields to come have different names. -/
theorem Pending.nodup_names (regular : record.Regular) (pending : record.Pending fields draft) :
    (fields.map (·.name)).Nodup :=
  regular.named.sublist (pending.suffix.sublist.map _)

/-- When the next field has been loaded, the others are to come. -/
theorem Pending.next (regular : record.Regular) {field : Field δ} {others : List (Field δ)}
    (pending : record.Pending (field :: others) draft) {item : Reading}
    (loaded : field.load item draft = .ok final) : record.Pending others final := by
  have among := pending.suffix.subset List.mem_cons_self
  have remaining : others <:+ record.fields := (List.suffix_cons field others).trans pending.suffix
  have distinct : (field :: others).Nodup := List.Nodup.of_map _ (pending.nodup_names regular)
  have kept (other : Field δ) (known : other ∈ record.fields) (different : field ≠ other) :
      other.given final = other.given draft :=
    (regular.passes among known different).kept loaded
  refine ⟨remaining, fun other behind => ?_, fun other known absent => ?_⟩
  · have different : field ≠ other := by
      rintro rfl
      exact (List.nodup_cons.mp distinct).1 behind
    rw [kept other (remaining.subset behind) different]
    exact pending.fresh other (List.mem_cons_of_mem _ behind)
  · by_cases same : field = other
    · rw [← same]
      exact regular.gives field among _ _ _ loaded
    · rw [kept other known same]
      refine pending.given other known fun behind => ?_
      rcases List.mem_cons.mp behind with here | behind
      · exact same here.symm
      · exact absent behind

/-- Behind items that are loaded into fields, the fields that follow are to come. -/
theorem Pending.remaining (regular : record.Regular) (pending : record.Pending fields draft)
    (loaded : positions draft fields items = .ok final) :
    record.Pending (fields.drop items.length) final := by
  induction items generalizing fields draft with
  | nil =>
    cases fields <;> cases loaded <;> exact pending
  | cons item rest ih =>
    obtain ⟨field, others, middle, rfl, here, behind⟩ := positions_cons_eq_ok.mp loaded
    exact ih (pending.next regular here) behind

/-- Members with items as their values and the names of fields as their keys. -/
def keyed (fields : List (Field δ)) (items : List Reading) : Members :=
  List.zipWith (fun field item => (some field.name, item)) fields items

/-- Items are loaded into fields as the members with the names of the fields are. -/
theorem Pending.positions_eq_members (regular : record.Regular)
    (pending : record.Pending fields draft) (fits : items.length ≤ fields.length) :
    positions draft fields items = record.members draft (keyed fields items) := by
  induction items generalizing fields draft with
  | nil => cases fields <;> rfl
  | cons item rest ih =>
    cases fields with
    | nil => simp at fits
    | cons field others =>
      have among := pending.suffix.subset List.mem_cons_self
      have member : record.member draft (some field.name) item = field.load item draft := by
        rw [member, regular.find?_name among]
        simp [pending.fresh field List.mem_cons_self]
      have head : keyed (field :: others) (item :: rest) =
          (some field.name, item) :: keyed others rest := rfl
      rw [positions, head, members, member]
      cases loaded : field.load item draft with
      | error fault => rfl
      | ok next => exact ih (pending.next regular loaded) (Nat.le_of_succ_le_succ fits)

/-- No more items than fields are loaded. -/
theorem length_le_of_positions (loaded : positions draft fields items = .ok final) :
    items.length ≤ fields.length := by
  induction items generalizing fields draft with
  | nil => exact Nat.zero_le _
  | cons item rest ih =>
    obtain ⟨field, others, middle, rfl, -, behind⟩ := positions_cons_eq_ok.mp loaded
    exact Nat.succ_le_succ (ih behind)

/-- A field that no member names is given exactly if it was given before. -/
theorem Orderly.given_of_absent (orderly : record.Orderly) {members : Members}
    {field : Field δ} (among : field ∈ record.fields)
    (absent : ∀ member ∈ members, member.1 ≠ some field.name)
    (loaded : record.members draft members = .ok final) :
    field.given final = field.given draft := by
  induction members generalizing draft with
  | nil =>
    cases loaded
    rfl
  | cons member rest ih =>
    obtain ⟨first, others⟩ := List.forall_mem_cons.mp absent
    obtain ⟨middle, here, behind⟩ := members_cons_eq_ok.mp loaded
    rw [ih others behind]
    obtain ⟨name, key, ⟨other, found, -, load⟩ | ⟨-, -, rfl⟩⟩ := member_eq_ok.mp here
    · have named : other.name = name := by simpa using List.find?_some found
      have different : other ≠ field := by
        rintro rfl
        rw [key, named] at first
        exact first rfl
      exact (orderly.passes (List.mem_of_find?_eq_some found) among different).kept load
    · rfl

/-- If members are loaded, the value of a field among them is, and with another one in its place
they are loaded as if that had been put into the draft last. -/
theorem Orderly.members_field (orderly : record.Orderly) {name : String} {get : δ → Option β}
    {set : δ → β → δ} {load : Reading → Except Fault β} {before behind : Members}
    (found : record.fields.find? (·.name == name) = some (.of name get set load))
    {reading : Reading}
    (loaded : record.members draft (before ++ (some name, reading) :: behind) = .ok final) :
    ∃ middle value, load reading = .ok value ∧ set middle value = final ∧
      ∀ reading', record.members draft (before ++ (some name, reading') :: behind) =
        set middle <$> load reading' := by
  have last (value : Reading) : (before ++ (some name, value) :: behind).Perm
      (before ++ behind ++ [(some name, value)]) :=
    List.perm_middle.trans (List.perm_append_singleton _ _).symm
  obtain ⟨middle, others, here⟩ :=
    members_append_eq_ok (orderly.members_perm (last reading) loaded)
  obtain ⟨final', here, none⟩ := members_cons_eq_ok.mp here
  cases none
  obtain ⟨name', key, ⟨field, found', fresh, inner⟩ | ⟨unknown, -, -⟩⟩ := member_eq_ok.mp here
  · cases key
    cases found.symm.trans found'
    obtain ⟨value, held, put⟩ := Field.of_load_eq_ok.mp inner
    refine ⟨middle, value, held, put, fun reading' => ?_⟩
    cases read : load reading' with
    | ok value' =>
      refine orderly.members_perm (last reading').symm ?_
      rw [members_append others]
      refine members_cons_eq_ok.mpr ⟨set middle value', ?_, rfl⟩
      exact member_eq_ok.mpr ⟨name, rfl, .inl ⟨_, found, fresh,
        Field.of_load_eq_ok.mpr ⟨value', read, rfl⟩⟩⟩
    | error fault =>
      obtain ⟨start, first, rest⟩ := members_append_eq_ok loaded
      obtain ⟨next, taken, -⟩ := members_cons_eq_ok.mp rest
      obtain ⟨_, key, ⟨_, found'', given, -⟩ | ⟨unknown, -, -⟩⟩ := member_eq_ok.mp taken
      · cases key
        cases found.symm.trans found''
        have failed : record.member start (some name) reading' = .error fault := by
          simp only [member, found, given, Bool.false_eq_true, ↓reduceIte]
          simp only [Field.of, read]
        rw [members_append first, members, failed]
        rfl
      · cases key
        cases found.symm.trans unknown
  · cases key
    cases found.symm.trans unknown

/-- Items around that of a field are loaded as the members with the names of their fields are,
around the one with the name of the field. -/
theorem Regular.positions_append_cons (regular : record.Regular) {field : Field δ}
    (known : record.fields[before.length]? = some field) (item : Reading)
    (fits : before.length + (behind.length + 1) ≤ record.fields.length) :
    positions record.start record.fields (before ++ item :: behind) =
      record.members record.start (keyed (record.fields.take before.length) before ++
        (some field.name, item) :: keyed (record.fields.drop (before.length + 1)) behind) := by
  -- The fields are split where the items are.
  have split : record.fields = record.fields.take before.length ++
      field :: record.fields.drop (before.length + 1) := by
    obtain ⟨bound, same⟩ := List.getElem?_eq_some_iff.mp known
    rw [← same, List.getElem_cons_drop, List.take_append_drop]
  have short : (record.fields.take before.length).length = before.length := by
    rw [List.length_take]
    omega
  have keys : keyed record.fields (before ++ item :: behind) =
      keyed (record.fields.take before.length) before ++
        (some field.name, item) :: keyed (record.fields.drop (before.length + 1)) behind := by
    rw [keyed, split, List.zipWith_append short, ← split]
    rfl
  rw [regular.pending.positions_eq_members regular (by simpa using fits), keys]

/-- If a record is loaded, the value of a field in it is, and with another one in its place the
record is loaded with that in its place. -/
theorem Regular.load_field (regular : record.Regular) {name : String} {place : Nat}
    {get : δ → Option β} {set : δ → β → δ} {load : Reading → Except Fault β}
    (known : record.fields[place]? = some (.of name get set load)) {part : α → β}
    {put : β → α → α}
    (makes : ∀ draft value made, record.finish (set draft value) = .ok made →
      part made = value ∧ ∀ value', record.finish (set draft value') = .ok (put value' made))
    {path : List Step} {context : Context} (leads : Leads (.field name place :: path) context)
    {reading : Reading} {value : α} (loaded : record.load (context.fill reading) = .ok value) :
    ∃ inner, Leads path inner ∧ load (inner.fill reading) = .ok (part value) ∧
      ∀ reading', record.load (context.fill reading') =
        (put · value) <$> load (inner.fill reading') := by
  have among := List.mem_of_getElem? known
  have found : record.fields.find? (·.name == name) = some (.of name get set load) :=
    regular.find?_name among
  cases leads with
  | @member _ inner _ _ before behind leads =>
    obtain ⟨draft, taken, made⟩ := load_object_eq_ok.mp loaded
    obtain ⟨middle, held, inside, rfl, others⟩ := regular.members_field found taken
    obtain ⟨same, made'⟩ := makes _ _ _ made
    refine ⟨inner, leads, same ▸ inside, fun reading' => ?_⟩
    rw [Context.fill, Record.load, others]
    cases load (inner.fill reading') <;> simp [made']
  | @position _ inner _ before behind leads =>
    obtain ⟨draft, taken, made⟩ := load_array_eq_ok.mp loaded
    have fits := length_le_of_positions taken
    have positions_eq (item : Reading) :
        positions record.start record.fields (before ++ item :: behind) =
          record.members record.start (keyed (record.fields.take before.length) before ++
            (some name, item) :: keyed (record.fields.drop (before.length + 1)) behind) :=
      regular.positions_append_cons known item (by simpa using fits)
    rw [positions_eq] at taken
    obtain ⟨middle, held, inside, rfl, others⟩ := regular.members_field found taken
    obtain ⟨same, made'⟩ := makes _ _ _ made
    refine ⟨inner, leads, same ▸ inside, fun reading' => ?_⟩
    rw [Context.fill, Record.load, positions_eq, others]
    cases load (inner.fill reading') <;> simp [made']

/-- If a record is loaded, a step to a field of it leads somewhere, or the record is made from a
draft without the field. -/
theorem Regular.exists_field (regular : record.Regular) {name : String} {place : Nat}
    {get : δ → Option β} {set : δ → β → δ} {load : Reading → Except Fault β}
    (known : record.fields[place]? = some (.of name get set load)) {reading : Reading} {value : α}
    (loaded : record.load reading = .ok value) :
    (∃ context inner, Leads [.field name place] context ∧ context.fill inner = reading) ∨
      ∃ draft, get draft = none ∧ record.finish draft = .ok value := by
  have among := List.mem_of_getElem? known
  rcases container_of_load loaded with ⟨items, rfl⟩ | ⟨members, rfl⟩
  · obtain ⟨draft, taken, made⟩ := load_array_eq_ok.mp loaded
    rcases lt_or_ge place items.length with long | short
    · refine .inl ⟨.item (items.take place) .whole (items.drop (place + 1)), items[place], ?_, ?_⟩
      · have first : (items.take place).length = place := List.length_take_of_le long.le
        have leads : Leads (.field name (items.take place).length :: []) _ :=
          .position (items.take place) (items.drop (place + 1)) .here
        rwa [first] at leads
      · rw [Context.fill, Context.fill, List.getElem_cons_drop, List.take_append_drop]
    · have pending := regular.pending.remaining regular taken
      have behind : .of name get set load ∈ record.fields.drop items.length := by
        refine List.mem_iff_getElem?.mpr ⟨place - items.length, ?_⟩
        rw [List.getElem?_drop, Nat.add_sub_cancel' short, known]
      exact .inr ⟨draft, Field.of_given_eq_false.mp (pending.fresh _ behind), made⟩
  · obtain ⟨draft, taken, made⟩ := load_object_eq_ok.mp loaded
    by_cases written : ∃ inner, (some name, inner) ∈ members
    · obtain ⟨inner, here⟩ := written
      obtain ⟨before, behind, rfl⟩ := List.append_of_mem here
      exact .inl ⟨.member before (some name) .whole behind, inner, .member before behind .here, rfl⟩
    · have absent : ∀ member ∈ members, member.1 ≠ some name := by
        rintro ⟨key, inner⟩ here rfl
        exact written ⟨inner, here⟩
      have missing := regular.given_of_absent among absent taken
      rw [regular.fresh _ among] at missing
      exact .inr ⟨draft, Field.of_given_eq_false.mp missing, made⟩

end Record

/-- If items are loaded, each one is, and with another one in its place they are loaded with that in
its place. -/
theorem items_append_cons {load : Reading → Except Fault α} {before behind : List Reading}
    {reading : Reading} {values : List α}
    (loaded : items load (before ++ reading :: behind) = .ok values) :
    ∃ first value rest, values = first ++ value :: rest ∧ first.length = before.length ∧
      load reading = .ok value ∧
      ∀ reading', items load (before ++ reading' :: behind) =
        (fun value' => first ++ value' :: rest) <$> load reading' := by
  induction before generalizing values with
  | nil =>
    obtain ⟨value, rest, here, others, rfl⟩ := items_cons_eq_ok.mp loaded
    refine ⟨[], value, rest, rfl, rfl, here, fun reading' => ?_⟩
    rw [List.nil_append, items, others]
    cases load reading' <;> rfl
  | cons item before ih =>
    obtain ⟨head, values, here, others, rfl⟩ := items_cons_eq_ok.mp loaded
    obtain ⟨first, value, rest, rfl, same, inside, replaced⟩ := ih others
    refine ⟨head :: first, value, rest, rfl, congrArg (· + 1) same, inside, fun reading' => ?_⟩
    rw [List.cons_append, items, here, replaced]
    cases load reading' <;> rfl

/-- What is loaded into an entry is an item. -/
theorem exists_item {load : Reading → Except Fault α} {readings : List Reading} {values : List α}
    {place : Nat} {value : α} (loaded : items load readings = .ok values)
    (here : values[place]? = some value) :
    ∃ before reading behind, readings = before ++ reading :: behind ∧ before.length = place ∧
      load reading = .ok value := by
  induction readings generalizing values place with
  | nil =>
    cases loaded
    cases here
  | cons reading rest ih =>
    obtain ⟨first, others, read, behind, rfl⟩ := items_cons_eq_ok.mp loaded
    cases place with
    | zero =>
      cases here
      exact ⟨[], reading, rest, rfl, rfl, read⟩
    | succ place =>
      obtain ⟨before, found, after, rfl, rfl, inside⟩ := ih behind here
      exact ⟨reading :: before, found, after, rfl, rfl, inside⟩

/-- At the end of a path, a part of what a loader makes is loaded: what is made has the part, and
with another reading in its place the part is changed, or the fault of that reading is reported.
Where no path leads, there is no part, or the part is what it is by default. -/
structure Focus (path : List Step) (outer : Reading → Except Fault α)
    (inner : Reading → Except Fault β) (default : Option β) (part? : α → Option β)
    (change : (β → β) → α → α) : Prop where
  /-- What is made has the part. -/
  has : ∀ {context reading value}, Leads path context → outer (context.fill reading) = .ok value →
    ∃ part, inner reading = .ok part ∧ part? value = some part
  /-- With another reading the part is changed. -/
  changes : ∀ {context reading value}, Leads path context →
    outer (context.fill reading) = .ok value → ∀ reading',
      outer (context.fill reading') = (fun part => change (fun _ => part) value) <$> inner reading'
  /-- The path leads to the part unless that is the default. -/
  reaches : ∀ {reading value part}, outer reading = .ok value → part? value = some part →
    (∃ context reading', Leads path context ∧ context.fill reading' = reading) ∨
      default = some part

/-- Without a step, what a loader makes is the part itself. -/
theorem focus_here (load : Reading → Except Fault α) {default : Option α} :
    Focus [] load load default some fun change => change where
  has := by
    intro context reading value leads loaded
    cases leads
    exact ⟨value, loaded, rfl⟩
  changes := by
    intro context reading value leads loaded reading'
    cases leads
    rw [Context.fill]
    cases load reading' <;> rfl
  reaches := fun {reading} _ _ _ _ => .inl ⟨.whole, reading, .here, rfl⟩

variable {path : List Step} {inner : Reading → Except Fault γ} {default : Option γ}
  {part? : β → Option γ} {change : (γ → γ) → β → β}

/-- A step to an entry of a table leads to the parts of the entry. -/
theorem Focus.entry {load : Reading → Except Fault β}
    (focus : Focus path load inner default part? change) (place : Nat) :
    Focus (.entry place :: path) (table load) inner default
      (fun entries => entries[place]?.bind part?)
      fun f entries => entries.modify place (change f) := by
  have entered {context : Context} {reading : Reading} {entries : Array β}
      (leads : Leads (.entry place :: path) context)
      (loaded : table load (context.fill reading) = .ok entries) :
      ∃ context' entry, Leads path context' ∧ load (context'.fill reading) = .ok entry ∧
        entries[place]? = some entry ∧ ∀ reading', table load (context.fill reading') =
          (fun entry => entries.modify place fun _ => entry) <$> load (context'.fill reading') := by
    cases leads with
    | @entry _ context' before behind leads =>
      obtain ⟨readings, same, each⟩ := table_eq_ok.mp loaded
      cases same
      obtain ⟨first, entry, rest, values, length, inside, replaced⟩ := items_append_cons each
      refine ⟨context', entry, leads, inside, ?_, fun reading' => ?_⟩
      · rw [← Array.getElem?_toList, values, ← length]
        simp
      · have modified (entry' : β) : entries.modify before.length (fun _ => entry') =
            (first ++ entry' :: rest).toArray := by
          apply Array.toList_inj.mp
          rw [Array.toList_modify, values, ← length, List.modify_eq_set_getElem?]
          simp
        rw [Context.fill, table, replaced]
        cases load (context'.fill reading') <;> simp [modified]
  constructor
  case has =>
    intro context reading entries leads loaded
    obtain ⟨context', entry, leads', inside, found, -⟩ := entered leads loaded
    obtain ⟨part, read, has⟩ := focus.has leads' inside
    exact ⟨part, read, by rw [found]; exact has⟩
  case changes =>
    intro context reading entries leads loaded reading'
    obtain ⟨context', entry, leads', inside, found, replaced⟩ := entered leads loaded
    have modified (part : γ) : entries.modify place (fun _ => change (fun _ => part) entry) =
        entries.modify place (change fun _ => part) := by
      apply Array.ext_getElem?
      intro place'
      rw [Array.getElem?_modify, Array.getElem?_modify]
      split
      · rename_i same
        rw [← same, found]
        rfl
      · rfl
    rw [replaced, focus.changes leads' inside]
    cases inner reading' <;> simp [modified]
  case reaches =>
    intro reading entries part loaded held
    obtain ⟨entry, here, inside⟩ := Option.bind_eq_some_iff.mp held
    obtain ⟨readings, rfl, each⟩ := table_eq_ok.mp loaded
    rw [← Array.getElem?_toList] at here
    obtain ⟨before, child, behind, rfl, rfl, read⟩ := exists_item each here
    rcases focus.reaches read inside with ⟨context, reading', leads, rfl⟩ | spare
    · exact .inl ⟨.item before context behind, reading', .entry before behind leads, rfl⟩
    · exact .inr spare

/-- A step to a field of a record leads to the parts of the field. -/
theorem Focus.field {record : Record δ α} (regular : record.Regular) {name : String} {place : Nat}
    {get : δ → Option β} {set : δ → β → δ} {load : Reading → Except Fault β}
    (known : record.fields[place]? = some (.of name get set load)) (part : α → β)
    (put : β → α → α)
    (makes : ∀ draft value made, record.finish (set draft value) = .ok made →
      part made = value ∧ ∀ value', record.finish (set draft value') = .ok (put value' made))
    (spare : ∀ draft made part', get draft = none → record.finish draft = .ok made →
      part? (part made) = some part' → default = some part')
    (focus : Focus path load inner default part? change) :
    Focus (.field name place :: path) record.load inner default (fun value => part? (part value))
      fun f value => put (change f (part value)) value where
  has := by
    intro context reading value leads loaded
    obtain ⟨context', leads', inside, -⟩ := regular.load_field known makes leads loaded
    exact focus.has leads' inside
  changes := by
    intro context reading value leads loaded reading'
    obtain ⟨context', leads', inside, replaced⟩ := regular.load_field known makes leads loaded
    rw [replaced, focus.changes leads' inside]
    cases inner reading' <;> rfl
  reaches := by
    intro reading value part' loaded held
    rcases regular.exists_field known loaded with ⟨context, child, leads, rfl⟩ | ⟨draft, none, made⟩
    · obtain ⟨inside, ends, read, -⟩ := regular.load_field known makes leads loaded
      cases ends
      rcases focus.reaches read held with ⟨further, reading', leads', rfl⟩ | spare
      · exact .inl ⟨context.comp further, reading', leads.append leads', Context.fill_comp _ _ _⟩
      · exact .inr spare
    · exact .inr (spare draft value part' none made held)

end Disassembler.Load
