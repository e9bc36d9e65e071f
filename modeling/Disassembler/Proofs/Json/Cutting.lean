import Disassembler.Proofs.Json.Numbers
import Disassembler.Proofs.Json.Strings

/-!
# Cutting printed values

The text of a value is cut into its tokens, whatever was read before it. Two values that follow each
other always have a bracket, a brace, a comma or a colon between them, which separates them also if
the first one ends with a number, and there may be blanks around it. Then the proof is an induction
over the value, for each way in which it is printed.
-/

namespace Disassembler.Json

namespace Lexer

variable {tokens added added' : List Token} {text text' : List Char} {c : Char} {token : Token}

/-- A text is cut into tokens if the machine stands behind them when it has read the text. -/
def Cuts (text : List Char) (added : List Token) : Prop :=
  ∀ tokens : List Token, Stands (run ⟨.between, tokens.toArray⟩ text) (tokens ++ added)

/-- A text separates what is before it from what is behind it if it ends every number before it and
is complete itself. -/
def Separates (text : List Char) (added : List Token) : Prop :=
  ∀ (lexer : Lexer) (tokens : List Token), lexer.Stands tokens →
    lexer.run text = ⟨.between, (tokens ++ added).toArray⟩

/-- A character that is a token by itself separates. -/
theorem separates_mark (ends : EndsNumber c)
    (start : ∀ tokens, start tokens c = emit tokens token) : Separates [c] [token] := by
  intro lexer tokens stands
  rw [stands.run_singleton ends, start, emit, List.push_toArray]

/-- A blank separates. -/
theorem separates_blank (ends : EndsNumber c) (blank : isBlank c = true) : Separates [c] [] := by
  intro lexer tokens stands
  rw [stands.run_singleton ends, start, if_pos blank, List.append_nil]

/-- Two texts that separate do so one after the other. -/
theorem Separates.append (first : Separates text added) (second : Separates text' added') :
    Separates (text ++ text') (added ++ added') := by
  intro lexer tokens stands
  rw [run_append, first lexer tokens stands, second _ _ (.between _), List.append_assoc]

/-- Each token that is a single character separates. -/
theorem separates_of_mark (known : (token, c) ∈ Token.marks) : Separates [c] [token] := by
  have each : ∀ pair ∈ Token.marks, pair.2.toNat < 0x80 ∧ NumberStage.digit? pair.2 = none ∧
      pair.2 ≠ '.' ∧ pair.2 ≠ 'e' ∧ pair.2 ≠ 'E' := by decide
  obtain ⟨small, noDigit, noMark⟩ := each _ known
  refine separates_mark ⟨small, noDigit, noMark⟩ fun tokens => ?_
  have starts : ∀ pair ∈ Token.marks, start tokens pair.2 = emit tokens pair.1 := by
    simp only [Token.marks, List.mem_cons, List.not_mem_nil, or_false, forall_eq_or_imp, forall_eq]
    exact ⟨rfl, rfl, rfl, rfl, rfl, rfl⟩
  exact starts _ known

/-- A comma separates. -/
theorem separates_comma : Separates [','] [.comma] := separates_of_mark (by decide)

/-- A colon separates. -/
theorem separates_colon : Separates [':'] [.colon] := separates_of_mark (by decide)

/-- A bracket that opens separates. -/
theorem separates_openArray : Separates ['['] [.openArray] := separates_of_mark (by decide)

/-- A bracket that closes separates. -/
theorem separates_closeArray : Separates [']'] [.closeArray] := separates_of_mark (by decide)

/-- A brace that opens separates. -/
theorem separates_openObject : Separates ['{'] [.openObject] := separates_of_mark (by decide)

/-- A brace that closes separates. -/
theorem separates_closeObject : Separates ['}'] [.closeObject] := separates_of_mark (by decide)

/-- A space separates. -/
theorem separates_space : Separates [' '] [] :=
  separates_blank ⟨by decide, by decide, by decide⟩ rfl

/-- A new line separates, however deep it is. -/
theorem separates_newLine (depth : Nat) : Separates (Value.newLine depth) [] := by
  have spaces (count : Nat) : Separates ('\n' :: List.replicate count ' ') [] := by
    induction count with
    | zero => exact separates_blank ⟨by decide, by decide, by decide⟩ rfl
    | succ count ih =>
      rw [List.replicate_succ', ← List.cons_append]
      exact ih.append separates_space
  exact spaces (2 * depth)

/-- Nothing is cut into no tokens. -/
theorem cuts_nil : Cuts [] [] := by
  intro tokens
  rw [List.append_nil]
  exact .between tokens

/-- Two texts with one between them that separates them are cut into all their tokens. -/
theorem Cuts.around {before after between : List Char} {first second middle : List Token}
    (cuts : Cuts before first) (separates : Separates between middle) (cuts' : Cuts after second) :
    Cuts (before ++ (between ++ after)) (first ++ (middle ++ second)) := by
  intro tokens
  rw [run_append, run_append, separates _ _ (cuts tokens), ← List.append_assoc,
    ← List.append_assoc]
  have following := cuts' (tokens ++ first ++ middle)
  rw [List.append_assoc tokens] at following ⊢
  exact following

/-- A word is cut into its token. -/
theorem cuts_word (read : ∀ tokens, run ⟨.between, tokens⟩ text = emit tokens token) :
    Cuts text [token] := by
  intro tokens
  rw [read, emit, List.push_toArray]
  exact .between _

/-- A quoted text is cut into its token. -/
theorem cuts_encode (text : String) : Cuts (Quoted.encode text.toList) [.string (some text)] := by
  intro tokens
  rw [run_encode]
  exact .between _

/-- Items are cut into their tokens if each one is. -/
theorem cuts_compactItems (items : List Value)
    (each : ∀ item ∈ items, Cuts item.compact item.tokens) :
    Cuts (Value.compactItems items) (Value.tokensOfItems items) := by
  induction items with
  | nil => exact cuts_nil
  | cons item rest ih =>
    obtain ⟨first, others⟩ := List.forall_mem_cons.mp each
    cases rest with
    | nil => exact first
    | cons second rest => exact first.around separates_comma (ih others)

/-- Members are cut into their tokens if each value is. -/
theorem cuts_compactMembers (members : List (String × Value))
    (each : ∀ member ∈ members, Cuts member.2.compact member.2.tokens) :
    Cuts (Value.compactMembers members) (Value.tokensOfMembers members) := by
  induction members with
  | nil => exact cuts_nil
  | cons member rest ih =>
    obtain ⟨key, value⟩ := member
    obtain ⟨first, others⟩ := List.forall_mem_cons.mp each
    have keyed := (cuts_encode key).around separates_colon first
    cases rest with
    | nil => exact keyed
    | cons second rest =>
      have whole := keyed.around separates_comma (ih others)
      rw [Value.compactMembers.eq_def, Value.tokensOfMembers.eq_def]
      exact whole

/-- A value that is printed without blanks is cut into its tokens. -/
theorem cuts_compact (value : Value) : Cuts value.compact value.tokens := by
  induction value using Value.parts_induction with
  | null => exact cuts_word fun tokens => rfl
  | bool value => cases value <;> exact cuts_word fun tokens => rfl
  | integer value => exact fun tokens => stands_integer tokens value
  | string text => exact cuts_encode text
  | array items ih =>
    have closed := (cuts_compactItems items ih).around separates_closeArray cuts_nil
    exact cuts_nil.around separates_openArray closed
  | object members ih =>
    have closed := (cuts_compactMembers members ih).around separates_closeObject cuts_nil
    exact cuts_nil.around separates_openObject closed

/-- Items on lines of their own are cut into their tokens if each one is. -/
theorem cuts_prettyItems (depth : Nat) (first : Value) (rest : List Value)
    (each : ∀ item ∈ first :: rest, Cuts (item.pretty depth) item.tokens) :
    Cuts (first.pretty depth ++ Value.prettyItems depth rest)
      (Value.tokensOfItems (first :: rest)) := by
  induction rest generalizing first with
  | nil =>
    rw [Value.prettyItems, List.append_nil]
    exact each first List.mem_cons_self
  | cons second rest ih =>
    obtain ⟨head, others⟩ := List.forall_mem_cons.mp each
    have whole := head.around (separates_comma.append (separates_newLine depth)) (ih second others)
    rw [Value.prettyItems, List.append_assoc]
    exact whole

/-- A key and its value are cut into their tokens, with a space between them. -/
theorem cuts_prettyMember (key : String) (cuts : Cuts text added) :
    Cuts (Quoted.encode key.toList ++ ':' :: ' ' :: text)
      (.string (some key) :: .colon :: added) :=
  (cuts_encode key).around (separates_colon.append separates_space) cuts

/-- Members on lines of their own are cut into their tokens if each value is. -/
theorem cuts_prettyMembers (depth : Nat) (first : String × Value) (rest : List (String × Value))
    (each : ∀ member ∈ first :: rest, Cuts (member.2.pretty depth) member.2.tokens) :
    Cuts (Quoted.encode first.1.toList ++ ':' :: ' ' :: first.2.pretty depth ++
        Value.prettyMembers depth rest)
      (Value.tokensOfMembers (first :: rest)) := by
  induction rest generalizing first with
  | nil =>
    rw [Value.prettyMembers, List.append_nil]
    exact cuts_prettyMember first.1 (each first List.mem_cons_self)
  | cons second rest ih =>
    obtain ⟨head, others⟩ := List.forall_mem_cons.mp each
    have whole := (cuts_prettyMember first.1 head).around
      (separates_comma.append (separates_newLine depth)) (ih second others)
    rw [Value.prettyMembers]
    simp only [List.append_assoc, List.cons_append, List.nil_append] at whole ⊢
    exact whole

/-- A value that is printed on several lines is cut into its tokens. -/
theorem cuts_pretty (value : Value) (depth : Nat) : Cuts (value.pretty depth) value.tokens := by
  induction value using Value.parts_induction generalizing depth with
  | null => exact cuts_word fun tokens => rfl
  | bool value => cases value <;> exact cuts_word fun tokens => rfl
  | integer value => exact fun tokens => stands_integer tokens value
  | string text => exact cuts_encode text
  | array items ih =>
    cases items with
    | nil => exact cuts_nil.around (separates_openArray.append separates_closeArray) cuts_nil
    | cons first rest =>
      have inner := cuts_prettyItems (depth + 1) first rest fun item among => ih item among _
      have closed := inner.around ((separates_newLine depth).append separates_closeArray) cuts_nil
      have whole := cuts_nil.around
        (separates_openArray.append (separates_newLine (depth + 1))) closed
      rw [Value.pretty]
      simp only [List.append_assoc, List.cons_append, List.nil_append, List.append_nil] at whole ⊢
      exact whole
  | object members ih =>
    cases members with
    | nil => exact cuts_nil.around (separates_openObject.append separates_closeObject) cuts_nil
    | cons first rest =>
      have inner := cuts_prettyMembers (depth + 1) first rest fun member among => ih member among _
      have closed := inner.around ((separates_newLine depth).append separates_closeObject) cuts_nil
      have whole := cuts_nil.around
        (separates_openObject.append (separates_newLine (depth + 1))) closed
      rw [Value.pretty]
      simp only [List.append_assoc, List.cons_append, List.nil_append, List.append_nil] at whole ⊢
      exact whole

end Lexer

/-- A text is printed from a value, without blanks or on several lines. -/
def Value.Printed (value : Value) (text : List Char) : Prop :=
  text = value.compact ∨ text = value.pretty 0

/-- A document of a value has the tokens of the value. -/
theorem Token.ofBytes_printed {value : Value} {text : List Char} (printed : value.Printed text) :
    Token.ofBytes (octets text) = value.tokens := by
  rcases printed with rfl | rfl
  · exact (Lexer.cuts_compact value []).finish
  · exact (Lexer.cuts_pretty value 0 []).finish

end Disassembler.Json
