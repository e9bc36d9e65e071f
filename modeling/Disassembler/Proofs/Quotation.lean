import Disassembler.Text.Quoted

/-!
# Quoted strings are read back

A reader undoes the escapes of a quoted string one by one and stops at the quotation mark that no
backslash guards. Behind a quoted string it finds the string and what follows
(`Text.Quoted.read?_encode`), so a quoted string tells where it ends. That the mark at the end is
the first one without a guard is also said without a reader: each quotation mark inside stands
behind an odd number of backslashes (`Text.Quoted.guarded_iff_inside`).
-/

namespace Disassembler

namespace Text.Quoted

/-- A character in front of what was read behind it. -/
def behind (c : Char) : Option (List Char × List Char) → Option (List Char × List Char) :=
  Option.map fun (text, rest) => (c :: text, rest)

/-- Reads the string whose characters start here, up to the quotation mark that ends it, and gives
what follows. -/
def readBody? : List Char → Option (List Char × List Char)
  | [] => none
  | '"' :: rest => some ([], rest)
  | '\\' :: '"' :: rest => behind '"' (readBody? rest)
  | '\\' :: '\\' :: rest => behind '\\' (readBody? rest)
  | '\\' :: 'n' :: rest => behind '\n' (readBody? rest)
  | '\\' :: 't' :: rest => behind '\t' (readBody? rest)
  | '\\' :: 'r' :: rest => behind '\r' (readBody? rest)
  | '\\' :: 'x' :: high :: low :: rest =>
    match Hex.value? high, Hex.value? low with
    | some high, some low => behind (Char.ofNat (high * 16 + low)) (readBody? rest)
    | _, _ => none
  | '\\' :: _ => none
  | c :: rest => behind c (readBody? rest)

/-- Reads a quoted string and gives what follows. -/
def read? : List Char → Option (List Char × List Char)
  | '"' :: rest => readBody? rest
  | _ => none

/-- The string that a text quotes, if the text is a quoted string and nothing else. -/
def unquote? (quoted : String) : Option String :=
  match read? quoted.toList with
  | some (text, []) => some (String.ofList text)
  | _ => none

/-- The control characters of ASCII are among its first 128. -/
theorem lt_of_isControl {c : Char} (control : isControl c = true) : c.toNat < 128 := by
  simp only [isControl, Bool.or_eq_true, decide_eq_true_eq, beq_iff_eq] at control
  omega

/-- A character without a value is no digit that is written. -/
theorem upper_ne {c : Char} (other : Hex.value? c = none) {value : Nat} (small : value < 16) :
    Hex.upper value ≠ c := by
  rintro rfl
  rw [Hex.value?_upper small] at other
  cases other

/-- What is written for a character is read as that character. -/
theorem readBody?_escape (c : Char) (rest : List Char) :
    readBody? (escape c ++ rest) = behind c (readBody? rest) := by
  unfold escape
  repeat' split
  case isFalse.isFalse.isFalse.isFalse.isFalse.isFalse mark backslash _ _ _ _ =>
    rw [List.singleton_append, readBody?] <;> simp [mark, backslash]
  case isFalse.isFalse.isFalse.isFalse.isFalse.isTrue control =>
    have small := lt_of_isControl control
    rw [List.cons_append, List.cons_append, List.cons_append, List.cons_append, List.nil_append,
      readBody?, Hex.value?_upper (by omega), Hex.value?_upper (by omega)]
    dsimp only
    rw [Nat.div_add_mod', Char.ofNat_toNat]
  all_goals
    rename_i same
    rw [same]
    rfl

/-- Behind a quoted string the string is read, and what follows is left. -/
theorem read?_encode (text rest : List Char) : read? (encode text ++ rest) = some (text, rest) := by
  show readBody? (text.flatMap escape ++ ['"'] ++ rest) = some (text, rest)
  induction text with
  | nil => rfl
  | cons c text ih =>
    rw [List.flatMap_cons, List.append_assoc, List.append_assoc, readBody?_escape,
      ← List.append_assoc, ih]
    rfl

/-- Whether the next character is guarded by a backslash: it is if a backslash is in front of it
that is not guarded itself. -/
def guarded (before : List Char) : Bool :=
  before.foldl (fun guarded c => c == '\\' && !guarded) false

/-- The number of backslashes at the end of a text. -/
def backslashes (before : List Char) : Nat := (before.reverse.takeWhile (· == '\\')).length

/-- A character is guarded if the number of backslashes in front of it is odd. -/
theorem guarded_iff (before : List Char) :
    guarded before = true ↔ backslashes before % 2 = 1 := by
  unfold guarded backslashes
  rw [← List.foldr_reverse]
  induction before.reverse with
  | nil => decide
  | cons c before ih =>
    rw [List.foldr_cons, List.takeWhile_cons]
    by_cases same : c = '\\'
    · simp only [same, beq_self_eq_true, Bool.true_and, Bool.not_eq_true', if_true,
        List.length_cons]
      rw [← Bool.not_eq_true, ih]
      omega
    · simp [same]

/-- Nothing behind what is written for a character is guarded by it. -/
theorem guarded_escape_append (c : Char) (before : List Char) :
    guarded (escape c ++ before) = guarded before := by
  have complete : guarded (escape c) = false := by
    unfold escape
    repeat' split
    case isFalse.isFalse.isFalse.isFalse.isFalse.isFalse _ backslash _ _ _ _ =>
      simp [guarded, backslash]
    case isFalse.isFalse.isFalse.isFalse.isFalse.isTrue control =>
      have small := lt_of_isControl control
      have last : Hex.upper (c.toNat % 16) ≠ '\\' := upper_ne (by decide) (by omega)
      simp [guarded, last]
    all_goals rfl
  unfold guarded at *
  rw [List.foldl_append, complete]

/-- A quotation mark is written for a quotation mark only. -/
theorem eq_mark_of_mem_escape {c : Char} (member : '"' ∈ escape c) : c = '"' := by
  unfold escape at member
  repeat' split at member
  case isTrue same => exact same
  case isFalse.isFalse.isFalse.isFalse.isFalse.isFalse =>
    exact (List.mem_singleton.mp member).symm
  case isFalse.isFalse.isFalse.isFalse.isFalse.isTrue control =>
    have small := lt_of_isControl control
    have high : Hex.upper (c.toNat / 16) ≠ '"' := upper_ne (by decide) (by omega)
    have low : Hex.upper (c.toNat % 16) ≠ '"' := upper_ne (by decide) (by omega)
    simp [high.symm, low.symm] at member
  all_goals exact absurd member (by decide)

/-- The quotation mark in what is written for a character is guarded. -/
theorem guarded_in_escape {c : Char} {before after : List Char}
    (split : escape c = before ++ '"' :: after) : guarded before = true := by
  have member : '"' ∈ escape c := by
    rw [split]
    exact List.mem_append_right _ List.mem_cons_self
  rw [eq_mark_of_mem_escape member] at split
  have written : ['\\', '"'] = before ++ '"' :: after := split
  match before with
  | [] => cases written
  | [guard] =>
    cases written
    rfl
  | _ :: _ :: _ => simp at written

/-- A quotation mark in a quoted string is guarded exactly if it is not the last character. -/
theorem guarded_iff_inside {text before after : List Char}
    (split : encode text = '"' :: (before ++ '"' :: after)) :
    guarded before = true ↔ after ≠ [] := by
  have body : text.flatMap escape ++ ['"'] = before ++ '"' :: after := (List.cons.inj split).2
  clear split
  induction text generalizing before with
  | nil =>
    obtain ⟨rfl, rfl⟩ : before = [] ∧ after = [] := by
      cases before with
      | nil => exact ⟨rfl, (List.cons.inj body).2.symm⟩
      | cons => simp at body
    decide
  | cons c text ih =>
    rw [List.flatMap_cons, List.append_assoc, List.append_eq_append_iff] at body
    obtain ⟨behind, rfl, rest⟩ | ⟨inner, same, rest⟩ := body
    · rw [guarded_escape_append]
      exact ih rest
    · cases inner with
      | nil =>
        -- The mark starts what is written behind this character.
        rw [← same.trans (List.append_nil before), ← List.append_nil (escape c),
          guarded_escape_append]
        exact ih rest.symm
      | cons mark inner =>
        obtain ⟨rfl, rfl⟩ := List.cons.inj rest
        simp [guarded_in_escape same]

/-- A quoted string has no control character of ASCII in it. -/
theorem isControl_eq_false_of_mem_encode {text : List Char} {c : Char} (member : c ∈ encode text) :
    isControl c = false := by
  unfold encode at member
  rw [List.mem_cons, List.mem_append, List.mem_flatMap, List.mem_singleton] at member
  obtain rfl | ⟨_, -, written⟩ | rfl := member
  · decide
  · exact isControl_eq_false_of_mem_escape written
  · decide

end Text.Quoted

open Text.Quoted

/-- Quoted strings tell where they end, and what they quote. Whatever follows, the string and what
follows it are told apart, and undoing the escapes gives the string back. A quoted string starts
with a quotation mark and ends with one. Of the others, each stands behind an odd number of
backslashes, and the last one does not. There is no control character of ASCII in it. -/
theorem quote_selfDelimiting (first second : String) :
    (∀ after after' : String, quote first ++ after = quote second ++ after' →
      first = second ∧ after = after') ∧
    unquote? (quote first) = some first ∧
    (∃ inside, (quote first).toList = '"' :: (inside ++ ['"'])) ∧
    (∀ before after, (quote first).toList = '"' :: (before ++ '"' :: after) →
      (backslashes before % 2 = 1 ↔ after ≠ [])) ∧
    ∀ c ∈ (quote first).toList, 0x20 ≤ c.toNat ∧ c.toNat ≠ 0x7f := by
  have characters (text : String) : (quote text).toList = encode text.toList := String.toList_ofList
  refine ⟨?ends, ?undone, ⟨_, characters first⟩, ?marks, ?plain⟩
  case ends =>
    intro after after' same
    have read := congrArg (fun text => read? text.toList) same
    simp only [String.toList_append, characters, read?_encode, Option.some.injEq, Prod.mk.injEq,
      String.toList_inj] at read
    exact read
  case undone =>
    have read := read?_encode first.toList []
    rw [List.append_nil] at read
    unfold unquote?
    rw [characters, read]
    exact congrArg some (String.ofList_toList)
  case marks =>
    intro before after split
    rw [characters] at split
    rw [← guarded_iff]
    exact guarded_iff_inside split
  case plain =>
    intro c member
    rw [characters] at member
    have plain := isControl_eq_false_of_mem_encode member
    simpa [isControl] using plain

/-- In the quoted string of a backslash and a quotation mark, that mark stands behind three
backslashes. -/
theorem quote_selfDelimiting_guarded :
    (quote "\\\"").toList = '"' :: (['\\', '\\', '\\'] ++ '"' :: ['"']) ∧
      backslashes ['\\', '\\', '\\'] % 2 = 1 ∧ unquote? (quote "\\\"") = some "\\\"" := by
  have split : (quote "\\\"").toList = '"' :: (['\\', '\\', '\\'] ++ '"' :: ['"']) := by
    decide +kernel
  obtain ⟨-, undone, -, marks, -⟩ := quote_selfDelimiting "\\\"" ""
  exact ⟨split, (marks _ _ split).mpr (List.cons_ne_nil _ _), undone⟩

end Disassembler
