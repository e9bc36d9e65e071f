import Disassembler.Proofs.Load.Success
import Mathlib.Data.List.Forall2
import Mathlib.Data.List.Pairwise

/-!
# Changes of documents

The objects that records are read from may have their members in any order, and others between
them, but no field twice. What such a change of one object comes to is carried outwards through the
records and the tables around it, so it needs a proof for a single record only. That proof needs of
the fields that each one is kept apart from the others in the draft.
-/

namespace Disassembler.Load

open Json

/-- The members of an object, each with the text of its key. -/
abbrev Members : Type := List (Option String × Reading)

/-- A change of the members of a record whose fields have given names. -/
abbrev Change : Type := List String → Members → Members → Prop

/-- Where the records are in a document. -/
inductive Shape where
  /-- There are none. -/
  | plain
  /-- They are in the entries of a table. -/
  | table (entry : Shape)
  /-- There is one, with fields that may have records in them again. -/
  | record (fields : List (String × Shape))

/-- A reading is changed at the members of one of the records in it. -/
inductive Edited (change : Change) : Shape → Reading → Reading → Prop where
  /-- The members of the record itself are changed. -/
  | here {fields : List (String × Shape)} {members members' : Members} :
      change (fields.map Prod.fst) members members' →
      Edited change (.record fields) (.object members) (.object members')
  /-- The value of a field is changed. -/
  | member {fields : List (String × Shape)} {name : String} {shape : Shape}
      {value value' : Reading} (before behind : Members) : fields.lookup name = some shape →
      Edited change shape value value' →
      Edited change (.record fields) (.object (before ++ (some name, value) :: behind))
        (.object (before ++ (some name, value') :: behind))
  /-- The value of a field is changed in a record that is written as an array. -/
  | position {fields : List (String × Shape)} {name : String} {shape : Shape}
      {value value' : Reading} (before behind : List Reading) :
      fields[before.length]? = some (name, shape) → Edited change shape value value' →
      Edited change (.record fields) (.array (before ++ value :: behind))
        (.array (before ++ value' :: behind))
  /-- An entry of a table is changed. -/
  | entry {shape : Shape} {value value' : Reading} (before behind : List Reading) :
      Edited change shape value value' →
      Edited change (.table shape) (.array (before ++ value :: behind))
        (.array (before ++ value' :: behind))

/-- A change that leaves the fields as they are. -/
inductive Rearranged : Change where
  /-- The members come in another order. -/
  | reordered {names : List String} {members members' : Members} : members.Perm members' →
      Rearranged names members members'
  /-- There is one more member, which is no field. -/
  | inserted {names : List String} {name : String} {value : Reading} (before behind : Members) :
      name ∉ names → value.intact = true →
      Rearranged names (before ++ behind) (before ++ (some name, value) :: behind)

/-- A change that gives a field once more, behind the place where it is given. -/
inductive Repeated (name : String) : Change where
  /-- There is one more member with the name of the field. -/
  | again {names : List String} {first second : Reading} (before between behind : Members) :
      name ∈ names →
      Repeated name names (before ++ (some name, first) :: (between ++ behind))
        (before ++ (some name, first) :: (between ++ (some name, second) :: behind))

/-- What loading comes to behind a change: a fault, or what it came to before it. -/
def outcome {α : Type} (fault : Option Fault) (value : α) : Except Fault α :=
  match fault with
  | some fault => .error fault
  | none => .ok value

variable {α β δ : Type} {change : Change} {fault : Option Fault}

/-- A loader carries a change: behind the change of a record somewhere in what it loads, it comes to
what the change comes to. -/
def Carries (change : Change) (fault : Option Fault) (shape : Shape)
    (load : Reading → Except Fault α) : Prop :=
  ∀ reading reading' value, Edited change shape reading reading' → load reading = .ok value →
    load reading' = outcome fault value

/-- Where there are no records, there is nothing to carry. -/
theorem carries_plain (load : Reading → Except Fault α) : Carries change fault .plain load :=
  fun _ _ _ edited _ => nomatch edited

/-- A table carries what its entries carry. -/
theorem Carries.table {shape : Shape} {load : Reading → Except Fault α}
    (carries : Carries change fault shape load) :
    Carries change fault (.table shape) (table load) := by
  intro reading reading' entries edited loaded
  cases edited with
  | @entry _ value value' before behind edited =>
    obtain ⟨readings, same, each⟩ := table_eq_ok.mp loaded
    cases same
    have carried : items load (before ++ value' :: behind) = outcome fault entries.toList := by
      clear loaded
      generalize entries.toList = values at each
      induction before generalizing values with
      | nil =>
        obtain ⟨entry, others, first, rest, rfl⟩ := items_cons_eq_ok.mp each
        rw [List.nil_append, items, carries _ _ _ edited first]
        cases fault <;> simp [outcome, rest]
      | cons other before ih =>
        obtain ⟨entry, others, first, rest, rfl⟩ := items_cons_eq_ok.mp each
        rw [List.cons_append, items, first, ih _ rest]
        cases fault <;> simp [outcome]
    rw [Load.table, carried]
    cases fault <;> rfl

/-- A field carries a change. -/
def Field.Carries (change : Change) (fault : Option Fault) (shape : Shape) (field : Field δ) :
    Prop :=
  ∀ reading reading' draft final, Edited change shape reading reading' →
    field.load reading draft = .ok final → field.load reading' draft = outcome fault final

/-- A field carries what its value carries. -/
theorem Carries.field {shape : Shape} {load : Reading → Except Fault β}
    (carries : Load.Carries change fault shape load) (name : String) (get : δ → Option β)
    (set : δ → β → δ) : (Field.of name get set load).Carries change fault shape := by
  intro reading reading' draft final edited loaded
  obtain ⟨value, inner, rfl⟩ := Field.of_load_eq_ok.mp loaded
  have carried := carries _ _ _ edited inner
  cases fault <;> simp only [outcome, Field.of] at carried ⊢ <;> rw [carried]

/-- A field has the name and carries the changes that belong to a shape. -/
def Field.Fits (change : Change) (fault : Option Fault) (field : Field δ)
    (named : String × Shape) : Prop :=
  field.name = named.1 ∧ field.Carries change fault named.2

/-- A field with a value of its own fits if the value carries the changes of its shape. -/
theorem Carries.fits {shape : Shape} {load : Reading → Except Fault β}
    (carries : Load.Carries change fault shape load) {name : String} {get : δ → Option β}
    {set : δ → β → δ} : (Field.of name get set load).Fits change fault (name, shape) :=
  ⟨rfl, carries.field name get set⟩

/-- A field leaves another one as it is, and may be loaded behind it too. -/
structure Field.Passes (field other : Field δ) : Prop where
  /-- The other one is given if it was given before. -/
  kept : ∀ {reading draft final}, field.load reading draft = .ok final →
    other.given final = other.given draft
  /-- The other one may come first. -/
  commute : ∀ {reading reading' draft middle final}, field.load reading draft = .ok middle →
    other.load reading' middle = .ok final →
    ∃ middle', other.load reading' draft = .ok middle' ∧ field.load reading middle' = .ok final

/-- Two fields leave each other as they are. -/
structure Field.Apart (field other : Field δ) : Prop where
  /-- The second one may come first. -/
  passes : field.Passes other
  /-- The first one may come first. -/
  passed : other.Passes field

/-- Fields with values of their own are apart if these are. -/
theorem Field.apart_of {name name' : String} {get : δ → Option α} {get' : δ → Option β}
    {set : δ → α → δ} {set' : δ → β → δ} {load : Reading → Except Fault α}
    {load' : Reading → Except Fault β} (kept : ∀ draft value, get' (set draft value) = get' draft)
    (kept' : ∀ draft value, get (set' draft value) = get draft)
    (commute : ∀ draft value value',
      set' (set draft value) value' = set (set' draft value') value) :
    (Field.of name get set load).Apart (.of name' get' set' load') := by
  constructor
  · constructor
    · intro reading draft final loaded
      obtain ⟨value, -, rfl⟩ := Field.of_load_eq_ok.mp loaded
      exact congrArg Option.isSome (kept draft value)
    · intro reading reading' draft middle final loaded loaded'
      obtain ⟨value, inner, rfl⟩ := Field.of_load_eq_ok.mp loaded
      obtain ⟨value', inner', rfl⟩ := Field.of_load_eq_ok.mp loaded'
      exact ⟨set' draft value', Field.of_load_eq_ok.mpr ⟨value', inner', rfl⟩,
        Field.of_load_eq_ok.mpr ⟨value, inner, (commute draft value value').symm⟩⟩
  · constructor
    · intro reading draft final loaded
      obtain ⟨value, -, rfl⟩ := Field.of_load_eq_ok.mp loaded
      exact congrArg Option.isSome (kept' draft value)
    · intro reading reading' draft middle final loaded loaded'
      obtain ⟨value, inner, rfl⟩ := Field.of_load_eq_ok.mp loaded
      obtain ⟨value', inner', rfl⟩ := Field.of_load_eq_ok.mp loaded'
      exact ⟨set draft value', Field.of_load_eq_ok.mpr ⟨value', inner', rfl⟩,
        Field.of_load_eq_ok.mpr ⟨value, inner, commute draft value' value⟩⟩

/-- A field that is loaded is given. -/
def Field.Gives (field : Field δ) : Prop :=
  ∀ reading draft final, field.load reading draft = .ok final → field.given final = true

/-- A field with a value of its own is given if the value can be found where it is put. -/
theorem Field.gives_of {name : String} {get : δ → Option α} {set : δ → α → δ}
    {load : Reading → Except Fault α} (found : ∀ draft value, get (set draft value) = some value) :
    (Field.of name get set load).Gives := by
  intro reading draft final loaded
  obtain ⟨value, -, rfl⟩ := Field.of_load_eq_ok.mp loaded
  exact congrArg Option.isSome (found draft value)

namespace Record

/-- The fields of a record do not meddle with each other. -/
structure Orderly (record : Record δ α) : Prop where
  /-- What is loaded is given. -/
  gives : ∀ field ∈ record.fields, field.Gives
  /-- Any two fields leave each other as they are. -/
  apart : record.fields.Pairwise Field.Apart

variable {record : Record δ α} {draft middle final : δ}

/-- Two different fields of an orderly record leave each other as they are. -/
theorem Orderly.passes (orderly : record.Orderly) {field other : Field δ}
    (first : field ∈ record.fields) (second : other ∈ record.fields) (different : field ≠ other) :
    field.Passes other :=
  have : Std.Symm (Field.Apart : Field δ → Field δ → Prop) :=
    ⟨fun _ _ apart => ⟨apart.passed, apart.passes⟩⟩
  (orderly.apart.forall first second different).passes

/-- Members are loaded one after the other. -/
theorem members_append {first second : Members} (loaded : record.members draft first = .ok middle) :
    record.members draft (first ++ second) = record.members middle second := by
  induction first generalizing draft with
  | nil =>
    cases loaded
    rfl
  | cons member rest ih =>
    obtain ⟨next, here, behind⟩ := members_cons_eq_ok.mp loaded
    rw [List.cons_append, members, here]
    exact ih behind

/-- The first ones of members that are loaded are loaded. -/
theorem members_append_eq_ok {first second : Members}
    (loaded : record.members draft (first ++ second) = .ok final) :
    ∃ middle, record.members draft first = .ok middle ∧
      record.members middle second = .ok final := by
  induction first generalizing draft with
  | nil => exact ⟨draft, rfl, loaded⟩
  | cons member rest ih =>
    obtain ⟨next, here, behind⟩ := members_cons_eq_ok.mp loaded
    obtain ⟨middle, before, after⟩ := ih behind
    exact ⟨middle, members_cons_eq_ok.mpr ⟨next, here, before⟩, after⟩

/-- Two members may change their places. -/
theorem Orderly.member_swap (orderly : record.Orderly) {first second : Option String × Reading}
    (loaded : record.member draft first.1 first.2 = .ok middle)
    (loaded' : record.member middle second.1 second.2 = .ok final) :
    ∃ middle', record.member draft second.1 second.2 = .ok middle' ∧
      record.member middle' first.1 first.2 = .ok final := by
  obtain ⟨name, key, ⟨field, found, fresh, load⟩ | ⟨unknown, intact, rfl⟩⟩ :=
    member_eq_ok.mp loaded
  · obtain ⟨name', key', ⟨other, found', fresh', load'⟩ | ⟨unknown', intact', rfl⟩⟩ :=
      member_eq_ok.mp loaded'
    · have among := List.mem_of_find?_eq_some found
      have among' := List.mem_of_find?_eq_some found'
      have different : field ≠ other := by
        rintro rfl
        rw [orderly.gives field among _ _ _ load] at fresh'
        cases fresh'
      have passes := orderly.passes among among' different
      have passes' := orderly.passes among' among different.symm
      obtain ⟨middle', before, behind⟩ := passes.commute load load'
      refine ⟨middle', member_eq_ok.mpr ⟨name', key', Or.inl ⟨other, found', ?_, before⟩⟩,
        member_eq_ok.mpr ⟨name, key, Or.inl ⟨field, found, ?_, behind⟩⟩⟩
      · rw [← passes.kept load, fresh']
      · rw [passes'.kept before, fresh]
    · exact ⟨draft, member_eq_ok.mpr ⟨name', key', Or.inr ⟨unknown', intact', rfl⟩⟩, loaded⟩
  · exact ⟨final, loaded', member_eq_ok.mpr ⟨name, key, Or.inr ⟨unknown, intact, rfl⟩⟩⟩

/-- Members may come in any order. -/
theorem Orderly.members_perm (orderly : record.Orderly) {members members' : Members}
    (perm : members.Perm members') (loaded : record.members draft members = .ok final) :
    record.members draft members' = .ok final := by
  induction perm generalizing draft with
  | nil => exact loaded
  | cons member _ ih =>
    obtain ⟨middle, here, behind⟩ := members_cons_eq_ok.mp loaded
    exact members_cons_eq_ok.mpr ⟨middle, here, ih behind⟩
  | swap first second rest =>
    obtain ⟨middle, here, behind⟩ := members_cons_eq_ok.mp loaded
    obtain ⟨next, here', behind'⟩ := members_cons_eq_ok.mp behind
    obtain ⟨middle', before, after⟩ := orderly.member_swap here here'
    exact members_cons_eq_ok.mpr ⟨middle', before, members_cons_eq_ok.mpr ⟨next, after, behind'⟩⟩
  | trans _ _ ih ih' => exact ih' (ih loaded)

/-- A field that is given stays given. -/
theorem Orderly.given_of_members (orderly : record.Orderly) {field : Field δ}
    (among : field ∈ record.fields) {members : Members}
    (loaded : record.members draft members = .ok final) (given : field.given draft = true) :
    field.given final = true := by
  induction members generalizing draft with
  | nil =>
    cases loaded
    exact given
  | cons member rest ih =>
    obtain ⟨middle, here, behind⟩ := members_cons_eq_ok.mp loaded
    refine ih behind ?_
    obtain ⟨name, -, ⟨other, found, -, load⟩ | ⟨-, -, rfl⟩⟩ := member_eq_ok.mp here
    · by_cases same : other = field
      · rw [← same]
        exact orderly.gives other (List.mem_of_find?_eq_some found) _ _ _ load
      · rw [(orderly.passes (List.mem_of_find?_eq_some found) among same).kept load]
        exact given
    · exact given

end Record

/-- A change of the members of any orderly record comes to a fault, or to what it came to before. -/
def Change.ComesTo (change : Change) (fault : Option Fault) : Prop :=
  ∀ {δ α : Type} {record : Record δ α}, record.Orderly → ∀ {members members' : Members}
    {draft final : δ}, change (record.fields.map (·.name)) members members' →
    record.members draft members = .ok final → record.members draft members' = outcome fault final

/-- Members that are rearranged come to what they came to before. -/
theorem rearranged_comesTo : Change.ComesTo Rearranged none := by
  intro δ α record orderly members members' draft final rearranged loaded
  cases rearranged with
  | reordered perm => exact orderly.members_perm perm loaded
  | @inserted _ name value before behind unknown intact =>
    obtain ⟨middle, first, second⟩ := Record.members_append_eq_ok loaded
    have noField : record.fields.find? (·.name == name) = none := by
      rw [List.find?_eq_none]
      intro field among same
      exact unknown (List.mem_map.mpr ⟨field, among, beq_iff_eq.mp same⟩)
    have passed : record.member middle (some name) value = .ok middle :=
      Record.member_eq_ok.mpr ⟨name, rfl, Or.inr ⟨noField, intact, rfl⟩⟩
    rw [Record.members_append first]
    exact Record.members_cons_eq_ok.mpr ⟨middle, passed, second⟩

/-- A field that is repeated is reported. -/
theorem repeated_comesTo (name : String) :
    Change.ComesTo (Repeated name) (some (.duplicateField name)) := by
  intro δ α record orderly members members' draft final repeated loaded
  cases repeated with
  | @again _ first second before between behind known =>
    obtain ⟨start, taken, loaded⟩ := Record.members_append_eq_ok loaded
    obtain ⟨middle, here, loaded⟩ := Record.members_cons_eq_ok.mp loaded
    obtain ⟨last, taken', -⟩ := Record.members_append_eq_ok loaded
    obtain ⟨name', key, ⟨field, found, -, load⟩ | ⟨unknown, -, -⟩⟩ := Record.member_eq_ok.mp here
    · cases key
      have among := List.mem_of_find?_eq_some found
      have given := orderly.given_of_members among taken' (orderly.gives field among _ _ _ load)
      have again : record.member last (some name) second = .error (.duplicateField name) := by
        simp only [Record.member, found, given, ↓reduceIte]
      rw [Record.members_append taken, Record.members, here]
      simp only
      rw [Record.members_append taken', Record.members, again]
      rfl
    · cases key
      obtain ⟨field, among, same⟩ := List.mem_map.mp known
      exact absurd (beq_iff_eq.mpr same) (List.find?_eq_none.mp unknown field among)

/-- Fields that fit have the names that belong to the shapes. -/
theorem fits_names {fields : List (Field δ)} {shapes : List (String × Shape)}
    (each : List.Forall₂ (Field.Fits change fault) fields shapes) :
    fields.map (·.name) = shapes.map Prod.fst := by
  induction each with
  | nil => rfl
  | cons fits _ ih => rw [List.map_cons, List.map_cons, fits.1, ih]

/-- The field with a name carries the changes that belong to the shape of the name. -/
theorem fits_find? {fields : List (Field δ)} {shapes : List (String × Shape)}
    (each : List.Forall₂ (Field.Fits change fault) fields shapes) {name : String} {shape : Shape}
    (found : shapes.lookup name = some shape) :
    ∃ field, fields.find? (·.name == name) = some field ∧ field.Carries change fault shape := by
  induction each with
  | nil => cases found
  | @cons field named fields shapes fits _ ih =>
    obtain ⟨same, carries⟩ := fits
    by_cases here : named.1 = name
    · have first : (named :: shapes).lookup name = some named.2 := by
        rw [List.lookup_cons, here, beq_self_eq_true]
      have shapeSame : named.2 = shape := Option.some.inj (first.symm.trans found)
      refine ⟨field, List.find?_cons_of_pos ?_, shapeSame ▸ carries⟩
      rw [same, here, beq_self_eq_true]
    · have other : (name == named.1) = false := beq_false_of_ne fun equal => here equal.symm
      rw [List.lookup_cons, other] at found
      obtain ⟨field', found', carries'⟩ := ih found
      refine ⟨field', ?_, carries'⟩
      rw [List.find?_cons_of_neg (by rw [same, beq_false_of_ne here]; decide)]
      exact found'

/-- Items that are loaded into fields carry what the fields carry. -/
theorem positions_carry {fields : List (Field δ)} {shapes : List (String × Shape)}
    (each : List.Forall₂ (Field.Fits change fault) fields shapes) {name : String} {shape : Shape}
    {before behind : List Reading} (found : shapes[before.length]? = some (name, shape))
    {value value' : Reading} (edited : Edited change shape value value') {draft final : δ}
    (loaded : Record.positions draft fields (before ++ value :: behind) = .ok final) :
    Record.positions draft fields (before ++ value' :: behind) = outcome fault final := by
  induction before generalizing fields shapes draft with
  | nil =>
    obtain ⟨field, others, middle, rfl, here, rest⟩ := Record.positions_cons_eq_ok.mp loaded
    cases each with
    | @cons _ named _ shapes fits _ =>
      cases found
      rw [List.nil_append, Record.positions, fits.2 _ _ _ _ edited here]
      cases fault with
      | none => exact rest
      | some fault => rfl
  | cons item before ih =>
    obtain ⟨field, others, middle, rfl, here, rest⟩ := Record.positions_cons_eq_ok.mp loaded
    cases each with
    | @cons _ named _ shapes _ each =>
      rw [List.cons_append, Record.positions, here]
      exact ih each found rest

/-- A record carries a change if it is orderly and its fields carry it. -/
theorem carries_record {record : Record δ α} (comesTo : change.ComesTo fault)
    (orderly : record.Orderly) {fields : List (String × Shape)}
    (each : List.Forall₂ (Field.Fits change fault) record.fields fields) :
    Carries change fault (.record fields) record.load := by
  -- Whatever becomes of the draft becomes of the record that is made from it.
  have object (members' : Members) {draft : δ} {value : α}
      (made : record.finish draft = .ok value)
      (taken : record.members record.start members' = outcome fault draft) :
      record.load (.object members') = outcome fault value := by
    rw [Record.load, taken]
    cases fault <;> simp [outcome, made]
  intro reading reading' value edited loaded
  cases edited with
  | @here _ members members' changed =>
    obtain ⟨draft, taken, made⟩ := Record.load_object_eq_ok.mp loaded
    rw [← fits_names each] at changed
    exact object members' made (comesTo orderly changed taken)
  | @member _ name shape value value' before behind found edited =>
    obtain ⟨draft, taken, made⟩ := Record.load_object_eq_ok.mp loaded
    obtain ⟨start, first, taken⟩ := Record.members_append_eq_ok taken
    obtain ⟨middle, here, rest⟩ := Record.members_cons_eq_ok.mp taken
    obtain ⟨field, named, carries⟩ := fits_find? each found
    refine object _ made ?_
    rw [Record.members_append first, Record.members]
    simp only [Record.member, named] at here ⊢
    cases given : field.given start with
    | true => simp [given] at here
    | false =>
      simp only [given, Bool.false_eq_true, ↓reduceIte] at here ⊢
      rw [carries _ _ _ _ edited here]
      cases fault with
      | none => exact rest
      | some fault => rfl
  | @position _ name shape value value' before behind found edited =>
    obtain ⟨draft, taken, made⟩ := Record.load_array_eq_ok.mp loaded
    rw [Record.load, positions_carry each found edited taken]
    cases fault <;> simp [outcome, made]

end Disassembler.Load
