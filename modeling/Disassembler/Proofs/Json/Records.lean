import Disassembler.Format.Document
import Disassembler.Proofs.Json.Documents
import Disassembler.Proofs.Lines

/-!
# Values on lines

No line feed is in a value that is printed without blanks, as every line feed in its strings is
escaped. So a text in which each value has a line is taken apart at the line feeds into the
documents of these values. The values may have their members in alphabetic order, which makes no
difference to a reader for whom the order of members means nothing.
-/

namespace Disassembler.Json

namespace Value

/-- Two values are the same but for the order of the members in their objects. -/
inductive Alike : Value → Value → Prop where
  /-- A value is like itself. -/
  | refl (value : Value) : Alike value value
  /-- Arrays are alike if their items are. -/
  | array {items items' : List Value} : List.Forall₂ Alike items items' →
      Alike (.array items) (.array items')
  /-- Objects are alike if they have the same keys for values that are alike, in any order. -/
  | object {members middle members' : List (String × Value)} : members.Perm middle →
      middle.map Prod.fst = members'.map Prod.fst →
      List.Forall₂ Alike (middle.map Prod.snd) (members'.map Prod.snd) →
      Alike (.object members) (.object members')

/-- Adding a member in its place changes the order only. -/
theorem insertMember_perm (member : String × Value) (members : List (String × Value)) :
    (insertMember member members).Perm (member :: members) := by
  induction members with
  | nil => exact .refl _
  | cons head tail ih =>
    rw [insertMember]
    split
    · exact (ih.cons head).trans (.swap member head tail)
    · exact .refl _

/-- Members with the members of their values in alphabetic order. -/
def innerSorted (members : List (String × Value)) : List (String × Value) :=
  members.map fun member => (member.1, member.2.sorted)

/-- Members in alphabetic order are the same members. -/
theorem sortedMembers_perm (members : List (String × Value)) :
    (sortedMembers members).Perm (innerSorted members) := by
  induction members with
  | nil => exact .refl _
  | cons member rest ih => exact (insertMember_perm _ _).trans (ih.cons _)

/-- A member whose key is smaller than all others is put in front of them. -/
theorem insertMember_of_lt {member : String × Value} {members : List (String × Value)}
    (least : ∀ other ∈ members, member.1 < other.1) :
    insertMember member members = member :: members := by
  cases members with
  | nil => rfl
  | cons head tail =>
    have before : member.1 < head.1 := least head List.mem_cons_self
    rw [insertMember, if_neg (String.lt_asymm before)]

/-- Members whose keys are in alphabetic order already stay in their places. -/
theorem sorted_object {members : List (String × Value)}
    (ordered : (members.map Prod.fst).Pairwise (· < ·)) :
    (object members).sorted = .object (innerSorted members) := by
  have same : sortedMembers members = innerSorted members := by
    induction members with
    | nil => rfl
    | cons member rest ih =>
      obtain ⟨least, others⟩ := List.pairwise_cons.mp ordered
      have inner : ∀ other ∈ innerSorted rest, member.1 < other.1 := by
        intro other among
        obtain ⟨original, here, rfl⟩ := List.mem_map.mp among
        exact least original.1 (List.mem_map_of_mem here)
      rw [sortedMembers, ih others]
      exact insertMember_of_lt inner
  rw [sorted, same]

/-- A value is like itself with all members in alphabetic order. -/
theorem alike_sorted (value : Value) : Alike value.sorted value := by
  induction value using Value.parts_induction with
  | null | bool _ | integer _ | string _ => exact .refl _
  | array items ih =>
    refine .array ?_
    induction items with
    | nil => exact .nil
    | cons item rest inner =>
      obtain ⟨first, others⟩ := List.forall_mem_cons.mp ih
      exact .cons first (inner others)
  | object members ih =>
    refine .object (sortedMembers_perm members) ?_ ?_
    · rw [innerSorted, List.map_map]
      rfl
    · induction members with
      | nil => exact .nil
      | cons member rest inner =>
        obtain ⟨first, others⟩ := List.forall_mem_cons.mp ih
        exact .cons first (inner others)

/-- Behind adding a member in its place, each key has the value that it has behind adding the member
in front. -/
theorem lookup_insertMember (member : String × Value) (members : List (String × Value))
    (key : String) : (insertMember member members).lookup key = (member :: members).lookup key := by
  induction members with
  | nil => rfl
  | cons head tail ih =>
    obtain ⟨name, value⟩ := member
    rw [insertMember]
    split
    · rename_i less
      obtain ⟨other, held⟩ := head
      have different : name ≠ other := (String.ne_of_lt less).symm
      rw [List.lookup_cons, ih]
      simp only [List.lookup_cons]
      by_cases first : key = name
      · subst first
        rw [beq_false_of_ne different]
      · rw [beq_false_of_ne first]
    · rfl

/-- With its members in alphabetic order an object has the same values under its keys. -/
theorem lookup_sortedMembers (members : List (String × Value)) (key : String) :
    (sortedMembers members).lookup key = (members.lookup key).map sorted := by
  induction members with
  | nil => rfl
  | cons member rest ih =>
    rw [sortedMembers, lookup_insertMember, List.lookup_cons, List.lookup_cons, ih]
    cases key == member.1 <;> rfl

/-- With all members in alphabetic order a value has the same values under its keys. -/
theorem member?_sorted (value : Value) (key : String) :
    value.sorted.member? key = (value.member? key).map sorted := by
  cases value with
  | object members => exact lookup_sortedMembers members key
  | null | bool _ | integer _ | string _ | array _ => rfl

/-- A character that is escaped is no line feed. -/
theorem newLine_notMem_escape (c : Char) : '\n' ∉ Quoted.escape c := by
  unfold Quoted.escape
  by_cases lineFeed : c = '\n'
  · subst lineFeed
    decide
  have other : '\n' ≠ c := fun same => lineFeed same.symm
  have digits : ∀ value < 16, '\n' ≠ Text.Hex.lower value := by decide
  have low := digits (c.toNat % 16) (Nat.mod_lt _ (by decide))
  by_cases control : c.toNat < 0x20
  · have high := digits (c.toNat / 16) (by omega)
    split_ifs <;> simp [high, low]
  · split_ifs <;> simp [other]

/-- There is no line feed in a quoted text. -/
theorem newLine_notMem_encode (text : List Char) : '\n' ∉ Quoted.encode text := by
  have inside : '\n' ∉ text.flatMap Quoted.escape := by
    intro among
    obtain ⟨c, -, here⟩ := List.mem_flatMap.mp among
    exact newLine_notMem_escape c here
  simp [Quoted.encode, inside]

/-- There is no line feed in a whole number. -/
theorem newLine_notMem_integer (value : Int) : '\n' ∉ integerCharacters value := by
  have digits (value : Nat) : '\n' ∉ Nat.toDigits 10 value := by
    intro among
    cases Nat.isDigit_of_mem_toDigits (by decide) (by decide) among
  cases value with
  | ofNat value => exact digits value
  | negSucc value => simp [integerCharacters, digits]

/-- There is no line feed in a value that is printed without blanks. -/
theorem newLine_notMem_compact (value : Value) : '\n' ∉ value.compact := by
  induction value using Value.parts_induction with
  | null => decide
  | bool value => cases value <;> decide
  | integer value => exact newLine_notMem_integer value
  | string text => exact newLine_notMem_encode text.toList
  | array items ih =>
    have inner : '\n' ∉ compactItems items := by
      induction items with
      | nil => exact List.not_mem_nil
      | cons item rest others =>
        rw [List.forall_mem_cons] at ih
        cases rest with
        | nil => exact ih.1
        | cons second rest => simp [compactItems, ih.1, others ih.2]
    simp [compact, inner]
  | object members ih =>
    have inner : '\n' ∉ compactMembers members := by
      induction members with
      | nil => exact List.not_mem_nil
      | cons member rest others =>
        rw [List.forall_mem_cons] at ih
        cases rest with
        | nil => simp [compactMembers, newLine_notMem_encode, ih.1]
        | cons second rest =>
          simp [compactMembers, newLine_notMem_encode, ih.1, others ih.2]
    simp [compact, inner]

/-- A text has values on lines: each line feed ends one, and what is before it is the document of
the value. -/
structure OnLines (text : List Char) (values : List Value) : Prop where
  /-- There are as many line feeds as values. -/
  newLines : text.count '\n' = values.length
  /-- Between the line feeds there are documents, and behind the last one there is nothing. -/
  lines : ∃ lines, text.splitOn '\n' = lines ++ [[]] ∧ lines.map parse? = values.map some

/-- Each record has a line. -/
theorem recordLines_eq (records : List Value) :
    Listing.recordLines records = Lines.joined (records.map compact) := by
  rw [Lines.joined, List.flatMap_map]
  rfl

/-- There is no line feed inside the line of a record. -/
theorem newLine_notMem_lines (records : List Value) :
    ∀ line ∈ records.map compact, '\n' ∉ line := by
  intro line among
  obtain ⟨record, -, rfl⟩ := List.mem_map.mp among
  exact newLine_notMem_compact record

/-- Between the line feeds of records on lines there are the records. -/
theorem splitOn_recordLines (records : List Value) :
    (Listing.recordLines records).splitOn '\n' = records.map compact ++ [[]] := by
  rw [recordLines_eq, Lines.splitOn_joined (newLine_notMem_lines records)]

/-- Records are on lines. -/
theorem onLines_recordLines (records : List Value) :
    OnLines (Listing.recordLines records) records where
  newLines := by
    have count := Lines.count_joined_eq_iff.mpr (newLine_notMem_lines records)
    rw [recordLines_eq, count, List.length_map]
  lines := by
    refine ⟨records.map compact, splitOn_recordLines records, ?_⟩
    rw [List.map_map]
    exact List.map_congr_left fun record _ => parse?_printed (Or.inl rfl)

/-- The values on the lines of a text are no other ones. -/
theorem OnLines.unique {text : List Char} {values values' : List Value} (on : OnLines text values)
    (on' : OnLines text values') : values = values' := by
  obtain ⟨lines, split, parsed⟩ := on.lines
  obtain ⟨lines', split', parsed'⟩ := on'.lines
  rw [split] at split'
  have same := List.append_inj_left' split' rfl
  rw [← same, parsed] at parsed'
  exact (List.map_inj_right fun _ _ => Option.some.inj).mp parsed'

end Value

end Disassembler.Json
