import Disassembler.Proofs.Load.Places

/-!
# Records as arrays

A record that is loaded from an object is loaded from the array of the values of its fields as well.
This is an induction over the fields that are still to come. The value of the next one is moved to
the front of the members, since members may come in any order. If it is not among them, its default
may stand there, since that makes no difference when the record is made from its draft. An array
that lacks a field without a default, or has more items than there are fields, is not loaded.
-/

namespace Disassembler.Load

open Json

/-- The fields of a record in their order, each with its name and with the default that stands for
it where it may be left out. -/
abbrev Forms : Type := List (String × Option Reading)

/-- Items are the values of the fields of an object: each field has the value of the member with its
name. If there is none, it has its default, or is left out with all fields behind it. -/
inductive Listed : Forms → Members → List Reading → Prop where
  /-- All fields that follow are left out. -/
  | short {forms : Forms} {members : Members} :
      (∀ form ∈ forms, ∀ member ∈ members, member.1 ≠ some form.1) → Listed forms members []
  /-- The field is given. -/
  | given {name : String} {default : Option Reading} {forms : Forms} {members : Members}
      {value : Reading} {values : List Reading} : (some name, value) ∈ members →
      Listed forms members values → Listed ((name, default) :: forms) members (value :: values)
  /-- The field is not given and has a default. -/
  | absent {name : String} {default : Reading} {forms : Forms} {members : Members}
      {values : List Reading} : (∀ member ∈ members, member.1 ≠ some name) →
      Listed forms members values →
      Listed ((name, some default) :: forms) members (default :: values)

/-- Items are the values of fields without a member that names none of them. -/
theorem Listed.without {forms : Forms} {before behind : Members} {name : String} {value : Reading}
    {values : List Reading} (listed : Listed forms (before ++ (some name, value) :: behind) values)
    (other : name ∉ forms.map Prod.fst) : Listed forms (before ++ behind) values := by
  have fewer : before ++ behind ⊆ before ++ (some name, value) :: behind := by
    intro member
    simp only [List.mem_append, List.mem_cons]
    tauto
  generalize whole : before ++ (some name, value) :: behind = members at listed
  rw [whole] at fewer
  induction listed with
  | short none => exact .short fun form among member here => none form among member (fewer here)
  | @given field default forms _ value' values here _ ih =>
    rw [List.map_cons, List.mem_cons, not_or] at other
    rw [← whole, List.mem_append, List.mem_cons] at here
    rcases here with first | same | last
    · exact .given (List.mem_append_left _ first) (ih other.2 fewer whole)
    · cases same
      exact absurd rfl other.1
    · exact .given (List.mem_append_right _ last) (ih other.2 fewer whole)
  | absent none _ ih =>
    rw [List.map_cons, List.mem_cons, not_or] at other
    exact .absent (fun member here => none member (fewer here)) (ih other.2 fewer whole)

variable {α δ : Type} {record : Record δ α} {draft final : δ} {fields : List (Field δ)}
  {forms : Forms} {members : Members} {items : List Reading}

namespace Record

/-- What becomes of a record without a field: it is not made if the field has no default, and
otherwise it is the one that is made with the default. -/
def Omits (record : Record δ α) (field : Field δ) : Option Reading → Prop
  | none => ∀ draft value, record.finish draft = .ok value → field.given draft = true
  | some default => ∀ draft, field.given draft = false →
    ∃ final, field.load default draft = .ok final ∧ record.finish final = record.finish draft

/-- A field has the name and the default of a form. -/
structure Formed (record : Record δ α) (field : Field δ) (form : String × Option Reading) :
    Prop where
  /-- It has the name. -/
  named : field.name = form.1
  /-- It may be left out if there is a default. -/
  omits : record.Omits field form.2

/-- The fields of a record have given names and defaults. -/
structure FormedBy (record : Record δ α) (forms : Forms) : Prop extends record.Regular where
  /-- Each field has its name and its default. -/
  each : List.Forall₂ record.Formed record.fields forms

/-- Members that name no field to come leave the draft as it is. -/
theorem Pending.eq_of_absent (pending : record.Pending fields draft)
    (absent : ∀ field ∈ fields, ∀ member ∈ members, member.1 ≠ some field.name)
    (loaded : record.members draft members = .ok final) : final = draft := by
  induction members with
  | nil =>
    cases loaded
    rfl
  | cons member rest ih =>
    obtain ⟨middle, here, behind⟩ := members_cons_eq_ok.mp loaded
    obtain ⟨name, key, ⟨other, found, fresh, -⟩ | ⟨-, -, rfl⟩⟩ := member_eq_ok.mp here
    · have named : other.name = name := by simpa using List.find?_some found
      by_cases expected : other ∈ fields
      · have different := absent other expected member List.mem_cons_self
        rw [key, named] at different
        exact absurd rfl different
      · rw [pending.given other (List.mem_of_find?_eq_some found) expected] at fresh
        cases fresh
    · exact ih (fun field among member here => absent field among member
        (List.mem_cons_of_mem _ here)) behind

/-- Fields that are formed have the names of their forms. -/
theorem formed_names (each : List.Forall₂ record.Formed fields forms) :
    fields.map (·.name) = forms.map Prod.fst := by
  induction each with
  | nil => rfl
  | cons formed _ ih => rw [List.map_cons, List.map_cons, formed.named, ih]

/-- Members that have the names of no forms name none of the fields either. -/
theorem absent_of_formed (each : List.Forall₂ record.Formed fields forms)
    (absent : ∀ form ∈ forms, ∀ member ∈ members, member.1 ≠ some form.1) :
    ∀ field ∈ fields, ∀ member ∈ members, member.1 ≠ some field.name := by
  induction each with
  | nil => exact List.forall_mem_nil _
  | cons formed _ ih =>
    obtain ⟨first, others⟩ := List.forall_mem_cons.mp absent
    rw [← formed.named] at first
    exact List.forall_mem_cons.mpr ⟨first, ih others⟩

/-- Each form is that of a field. -/
theorem exists_formed (each : List.Forall₂ record.Formed fields forms)
    {form : String × Option Reading} (among : form ∈ forms) :
    ∃ field ∈ fields, record.Omits field form.2 := by
  induction each with
  | nil => cases among
  | @cons field _ _ _ formed _ ih =>
    rcases List.mem_cons.mp among with rfl | behind
    · exact ⟨field, List.mem_cons_self, formed.omits⟩
    · obtain ⟨found, here, omits⟩ := ih behind
      exact ⟨found, List.mem_cons_of_mem _ here, omits⟩

/-- The values of the fields that are still to come are loaded into them, and make the record that
the members make. -/
theorem Pending.positions_listed (regular : record.Regular)
    (each : List.Forall₂ record.Formed fields forms)
    (pending : record.Pending fields draft) (listed : Listed forms members items)
    (loaded : record.members draft members = .ok final) :
    ∃ final', positions draft fields items = .ok final' ∧
      record.finish final' = record.finish final := by
  induction each generalizing draft members items final with
  | nil =>
    cases listed with
    | short _ =>
      rw [pending.eq_of_absent (List.forall_mem_nil _) loaded]
      exact ⟨draft, rfl, rfl⟩
  | @cons field form others forms fits rest ih =>
    obtain ⟨named, omits⟩ := fits
    have among := pending.suffix.subset List.mem_cons_self
    have found := regular.find?_name among
    have fresh := pending.fresh field List.mem_cons_self
    -- A member that is loaded into the field first is its first item.
    have step {value : Reading} {members : Members} {values : List Reading} {final : δ}
        (listed : Listed forms members values)
        (loaded : record.members draft ((some field.name, value) :: members) = .ok final) :
        ∃ final', positions draft (field :: others) (value :: values) = .ok final' ∧
          record.finish final' = record.finish final := by
      obtain ⟨middle, here, behind⟩ := members_cons_eq_ok.mp loaded
      rw [member, found] at here
      simp only [fresh, Bool.false_eq_true, ↓reduceIte] at here
      rw [positions, here]
      exact ih (pending.next regular here) listed behind
    cases listed with
    | short none =>
      have absent := absent_of_formed (.cons ⟨named, omits⟩ rest) none
      rw [pending.eq_of_absent absent loaded]
      exact ⟨draft, rfl, rfl⟩
    | @given name default _ _ value values here listed =>
      obtain ⟨before, behind, rfl⟩ := List.append_of_mem here
      have distinct : name ∉ forms.map Prod.fst := by
        have same : field.name = name := named
        rw [← formed_names rest, ← same]
        exact (List.nodup_cons.mp (pending.nodup_names regular)).1
      refine step (listed.without distinct) ?_
      rw [named]
      exact regular.members_perm List.perm_middle loaded
    | @absent name default _ _ values none listed =>
      have absent : ∀ member ∈ members, member.1 ≠ some field.name := by
        rw [named]
        exact none
      have missing : field.given final = false := by
        rw [regular.given_of_absent among absent loaded, fresh]
      obtain ⟨final', added, same⟩ := omits final missing
      have behind : record.members draft (members ++ [(some field.name, default)]) =
          .ok final' := by
        rw [members_append loaded]
        exact members_cons_eq_ok.mpr
          ⟨final', member_eq_ok.mpr ⟨_, rfl, .inl ⟨field, found, missing, added⟩⟩, rfl⟩
      obtain ⟨final'', taken, same'⟩ :=
        step listed (regular.members_perm (List.perm_append_singleton _ _) behind)
      exact ⟨final'', taken, same'.trans same⟩

/-- A record that is loaded from an object is loaded from the array of its fields as well. -/
theorem FormedBy.load_listed (formed : record.FormedBy forms) {value : α}
    (listed : Listed forms members items) (loaded : record.load (.object members) = .ok value) :
    record.load (.array items) = .ok value := by
  obtain ⟨draft, taken, made⟩ := load_object_eq_ok.mp loaded
  obtain ⟨draft', taken', same⟩ :=
    formed.pending.positions_listed formed.toRegular formed.each listed taken
  exact load_array_eq_ok.mpr ⟨draft', taken', by rw [same, made]⟩

/-- A record is not loaded from an array that lacks a field without a default, or that has more
items than there are fields. -/
theorem FormedBy.not_load_array (formed : record.FormedBy forms)
    (wrong : (∃ form ∈ forms.drop items.length, form.2 = none) ∨ forms.length < items.length)
    (value : α) : record.load (.array items) ≠ .ok value := by
  intro loaded
  obtain ⟨draft, taken, made⟩ := load_array_eq_ok.mp loaded
  rcases wrong with ⟨form, lacking, required⟩ | long
  · have pending := formed.pending.remaining formed.toRegular taken
    obtain ⟨field, among, omits⟩ :=
      exists_formed (List.forall₂_drop items.length formed.each) lacking
    rw [required] at omits
    have given := omits draft value made
    rw [pending.fresh field among] at given
    cases given
  · have short := length_le_of_positions taken
    rw [formed.each.length_eq] at short
    omega

end Record

end Disassembler.Load
