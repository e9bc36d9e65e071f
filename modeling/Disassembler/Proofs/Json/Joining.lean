import Disassembler.Proofs.Json.Nesting

/-!
# Texts behind texts

What the machine cuts off is not changed by the tokens that are complete already. So where no token
is left open, a text and what follows it are cut one after the other, and all that follows a
document makes it more than a document, unless it is blank.
-/

namespace Disassembler.Json

namespace Token

/-- Texts that are written one after the other have their tokens one after the other. -/
theorem Written.append {tokens tokens' : List Token} {bytes bytes' : List UInt8}
    (first : Written tokens bytes) (second : Written tokens' bytes') :
    Written (tokens ++ tokens') (bytes ++ bytes') := by
  induction second with
  | nil =>
    rw [List.append_nil, List.append_nil]
    exact first
  | blank _ blank ih =>
    rw [← List.append_assoc]
    exact ih.blank blank
  | token _ spelled ih =>
    rw [← List.append_assoc, ← List.append_assoc]
    exact ih.token spelled

/-- A text without tokens is blank. -/
theorem written_nil_iff {bytes : List UInt8} :
    Written [] bytes ↔ ∀ byte ∈ bytes, byte ∈ blanks := by
  constructor
  · intro written
    generalize none : ([] : List Token) = tokens at written
    induction written with
    | nil => exact List.forall_mem_nil _
    | blank _ blank ih =>
      exact List.forall_mem_append.mpr ⟨ih none, List.forall_mem_singleton.mpr blank⟩
    | token _ _ _ => simp at none
  · intro each
    induction bytes with
    | nil => exact .nil
    | cons byte rest ih =>
      obtain ⟨blank, others⟩ := List.forall_mem_cons.mp each
      exact (Written.nil.blank blank).append (ih others)

end Token

namespace Lexer

/-- The machine with other tokens in front of those that it has. -/
def after (base : Array Token) (lexer : Lexer) : Lexer := ⟨lexer.state, base ++ lexer.tokens⟩

variable (base tokens : Array Token) (c : Char)

/-- The machine in a state, with other tokens in front. -/
@[simp]
theorem after_mk (state : LexerState) :
    (⟨state, tokens⟩ : Lexer).after base = ⟨state, base ++ tokens⟩ := rfl

/-- The machine behind a token, with other tokens in front. -/
@[simp]
theorem after_emit (token : Token) :
    (emit tokens token).after base = emit (base ++ tokens) token := by
  simp [emit]

/-- The machine that gives up, with other tokens in front. -/
@[simp]
theorem after_fail : (fail tokens).after base = fail (base ++ tokens) := by
  simp [fail]

/-- A token starts in the same way behind other tokens. -/
theorem after_start : (start tokens c).after base = start (base ++ tokens) c := by
  unfold start
  cases NumberStage.sign.next? {} c with
  | none => simp only [apply_ite (after base), after_emit, after_fail, after_mk]
  | some found => simp only [apply_ite (after base), after_emit, after_mk]

/-- A word goes on in the same way behind other tokens. -/
theorem after_stepWord (token : Token) (rest : List Char) :
    (stepWord tokens token c rest).after base = stepWord (base ++ tokens) token c rest := by
  cases rest with
  | nil => exact after_fail base tokens
  | cons head rest =>
    cases rest <;> simp only [stepWord, apply_ite (after base), after_emit, after_fail, after_mk]

/-- A number goes on in the same way behind other tokens. -/
theorem after_stepNumber (stage : NumberStage) (numeral : Numeral) :
    (stepNumber tokens stage numeral c).after base =
      stepNumber (base ++ tokens) stage numeral c := by
  unfold stepNumber
  cases stage.next? numeral c with
  | none =>
    simp only [apply_ite (after base), after_start, after_fail]
    rw [Array.append_push]
  | some found => rfl

/-- A string goes on in the same way behind other tokens. -/
theorem after_stepString (parts : Array StringPart) (byte : UInt8) :
    (stepString tokens parts byte c).after base = stepString (base ++ tokens) parts byte c := by
  unfold stepString
  simp only [apply_ite (after base), after_emit, after_fail, after_mk]

/-- A string goes on behind a backslash in the same way behind other tokens. -/
theorem after_stepEscape (parts : Array StringPart) :
    (stepEscape tokens parts c).after base = stepEscape (base ++ tokens) parts c := by
  unfold stepEscape
  cases escaped? c <;> simp only [apply_ite (after base), after_fail, after_mk]

/-- A unit goes on in the same way behind other tokens. -/
theorem after_stepUnit (parts : Array StringPart) (missing value : Nat) :
    (stepUnit tokens parts missing value c).after base =
      stepUnit (base ++ tokens) parts missing value c := by
  unfold stepUnit
  cases Text.Hex.value? c with
  | none => exact after_fail base tokens
  | some digit => simp only [apply_ite (after base), after_mk]

/-- The machine goes on in the same way behind other tokens. -/
theorem after_step (lexer : Lexer) (byte : UInt8) :
    (lexer.step byte).after base = (lexer.after base).step byte := by
  obtain ⟨state, tokens⟩ := lexer
  cases state with
  | between => exact after_start base tokens _
  | word rest token => exact after_stepWord base tokens _ token rest
  | number stage numeral => exact after_stepNumber base tokens _ stage numeral
  | string parts => exact after_stepString base tokens _ parts byte
  | escape parts => exact after_stepEscape base tokens _ parts
  | unit parts missing value => exact after_stepUnit base tokens _ parts missing value
  | broken => rfl

/-- The machine comes to the same tokens behind other ones. -/
theorem after_foldl (bytes : List UInt8) (lexer : Lexer) :
    bytes.foldl step (lexer.after base) = (bytes.foldl step lexer).after base := by
  induction bytes generalizing lexer with
  | nil => rfl
  | cons byte rest ih => rw [List.foldl_cons, List.foldl_cons, ← after_step, ih]

/-- At the end the machine has the same tokens behind other ones. -/
theorem finish_after (lexer : Lexer) :
    (lexer.after base).finish = base.toList ++ lexer.finish := by
  obtain ⟨state, tokens⟩ := lexer
  cases state <;> simp [after, Lexer.finish]

end Lexer

/-- Behind a text that leaves no number open, a text is cut as if it stood alone. -/
theorem Token.ofBytes_append {tokens : List Token} {bytes : List UInt8}
    (written : Token.Written tokens bytes) (apart : tokens.IsChain Lexer.Apart)
    (noNumber : ∀ numeral, tokens.getLast? ≠ some (.number numeral)) (behind : List UInt8) :
    Token.ofBytes (bytes ++ behind) = tokens ++ Token.ofBytes behind := by
  have between := (Lexer.stands_of_written written apart).eq_between noNumber
  have alone : (⟨.between, tokens.toArray⟩ : Lexer) = Lexer.after tokens.toArray {} := by
    simp [Lexer.after]
  rw [ofBytes, List.foldl_append, between, alone, Lexer.after_foldl, Lexer.finish_after]
  rfl

namespace Reading

/-- Blanks around a document make no difference. -/
theorem Document.padded {reading : Reading} {bytes before behind : List UInt8}
    (document : reading.Document bytes) (blankBefore : ∀ byte ∈ before, byte ∈ Token.blanks)
    (blankBehind : ∀ byte ∈ behind, byte ∈ Token.blanks) :
    reading.Document (before ++ bytes ++ behind) := by
  have spaced := ((Token.written_nil_iff.mpr blankBefore).append document.written).append
    (Token.written_nil_iff.mpr blankBehind)
  rw [List.nil_append, List.append_nil] at spaced
  exact ⟨document.intact, spaced⟩

/-- Tokens behind those of a reading come after it. -/
theorem ofTokens_trailing {reading : Reading} (intact : reading.intact = true)
    {behind : List Token} (more : behind ≠ []) :
    ofTokens (reading.tokens ++ behind) = (reading, true) := by
  have done (trailing : Bool) (behind : List Token) :
      behind.foldl Reader.step (.done reading trailing) =
        .done reading (trailing || !behind.isEmpty) := by
    induction behind generalizing trailing with
    | nil => simp
    | cons token rest ih =>
      rw [List.foldl_cons, Reader.step, ih]
      simp
  have nonempty : behind.isEmpty = false := by simpa using more
  unfold ofTokens
  rw [List.foldl_append, Reader.completes intact]
  show (behind.foldl Reader.step (.done reading false)).finish = _
  rw [done, nonempty]
  rfl

/-- The last token of an array or an object is no number. -/
theorem getLast?_tokens {reading : Reading}
    (container : (∃ items, reading = .array items) ∨ ∃ members, reading = .object members)
    (numeral : Numeral) : reading.tokens.getLast? ≠ some (.number numeral) := by
  rcases container with ⟨items, rfl⟩ | ⟨members, rfl⟩
  · rw [tokens, ← List.cons_append, List.getLast?_concat]
    simp
  · rw [tokens, ← List.cons_append, List.getLast?_concat]
    simp

/-- Behind a document of an array or an object there is more than the document, unless there are
blanks only. -/
theorem Document.followed {reading : Reading} {bytes behind : List UInt8}
    (document : reading.Document bytes)
    (container : (∃ items, reading = .array items) ∨ ∃ members, reading = .object members)
    (more : ∃ byte ∈ behind, byte ∉ Token.blanks) :
    ofBytes (bytes ++ behind) = (reading, true) := by
  have some : Token.ofBytes behind ≠ [] := by
    intro none
    have written : Token.Written (Token.ofBytes behind) behind :=
      Token.written_of_ofBytes (by simp [none])
    rw [none] at written
    obtain ⟨byte, among, noBlank⟩ := more
    exact noBlank (Token.written_nil_iff.mp written byte among)
  rw [ofBytes, Token.ofBytes_append document.written reading.isChain_tokens
    (getLast?_tokens container), ofTokens_trailing document.intact some]

end Reading

end Disassembler.Json
