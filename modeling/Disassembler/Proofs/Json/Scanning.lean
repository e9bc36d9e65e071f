import Disassembler.Proofs.Json.Cutting
import Disassembler.Proofs.Json.Numerals
import Mathlib.Data.List.Chain

/-!
# Cutting texts of any form

However tokens are written and spaced, the machine cuts the text into these tokens, as long as no
two numbers follow each other. And a text that is cut without a fault is written by the rules, in
these tokens. The second is an induction over the bytes: in each of its states the machine knows
which tokens are complete, and what has been written of the next one.
-/

namespace Disassembler.Json

namespace Lexer

/-- A blank separates tokens. -/
theorem Stands.foldl_blank {lexer : Lexer} {tokens : List Token} (stands : lexer.Stands tokens)
    {byte : UInt8} (blank : byte ∈ Token.blanks) :
    lexer.step byte = ⟨.between, tokens.toArray⟩ := by
  have separates (c : Char) (ends : EndsNumber c) (blank : isBlank c = true) :
      lexer.step (UInt8.ofNat c.toNat) = ⟨.between, tokens.toArray⟩ := by
    rw [← Lexer.run_singleton _ ends.small, stands.run_singleton ends, start, if_pos blank]
  simp only [Token.blanks, List.mem_cons, List.not_mem_nil, or_false] at blank
  rcases blank with rfl | rfl | rfl | rfl
  · exact separates ' ' ⟨by decide, by decide, by decide⟩ rfl
  · exact separates '\t' ⟨by decide, by decide, by decide⟩ rfl
  · exact separates '\n' ⟨by decide, by decide, by decide⟩ rfl
  · exact separates '\r' ⟨by decide, by decide, by decide⟩ rfl

/-- The machine is between tokens if the last token is no number. -/
theorem Stands.eq_between {lexer : Lexer} {tokens : List Token} (stands : lexer.Stands tokens)
    (noNumber : ∀ numeral, tokens.getLast? ≠ some (.number numeral)) :
    lexer = ⟨.between, tokens.toArray⟩ := by
  cases stands with
  | between => rfl
  | number tokens numeral complete =>
    exact absurd (List.getLast?_concat) (noNumber numeral)

/-- A word is cut off behind other tokens. -/
theorem Stands.run_word {lexer : Lexer} {tokens : List Token} (stands : lexer.Stands tokens)
    {token : Token} {text : List Char} (known : (token, text) ∈ Token.words) :
    lexer.run text = ⟨.between, (tokens ++ [token]).toArray⟩ := by
  have starts {c : Char} (ends : EndsNumber c) (rest : List Char) :
      lexer.run (c :: rest) = (start tokens.toArray c).run rest := by
    rw [run_cons, stands.run_singleton ends]
  rw [← List.push_toArray]
  simp only [Token.words, List.mem_cons, Prod.mk.injEq, List.not_mem_nil, or_false] at known
  rcases known with ⟨rfl, rfl⟩ | ⟨rfl, rfl⟩ | ⟨rfl, rfl⟩
  · rw [starts ⟨by decide, by decide, by decide⟩]
    rfl
  · rw [starts ⟨by decide, by decide, by decide⟩]
    rfl
  · rw [starts ⟨by decide, by decide, by decide⟩]
    rfl

/-- Two tokens that may follow each other without a blank: not both are numbers. -/
def Apart (first second : Token) : Prop :=
  ∀ numeral numeral', first = .number numeral → second ≠ .number numeral'

/-- A token is cut off behind other tokens, from each of its forms. -/
theorem Stands.token {lexer : Lexer} {tokens : List Token} (stands : lexer.Stands tokens)
    {token : Token} {written : List UInt8} (spelled : token.Spelled written)
    (apart : ∀ last, tokens.getLast? = some last → Apart last token) :
    Stands (written.foldl step lexer) (tokens ++ [token]) := by
  cases spelled with
  | mark known =>
    change Stands (lexer.run _) _
    rw [separates_of_mark known lexer tokens stands]
    exact .between _
  | word known =>
    change Stands (lexer.run _) _
    rw [stands.run_word known]
    exact .between _
  | @number numeral text numeralText =>
    have between := stands.eq_between fun other last => apart _ last other numeral rfl rfl
    obtain ⟨stage, complete, read⟩ := run_numeral tokens.toArray numeralText
    rw [between]
    change Stands (run _ text) _
    rw [read]
    exact .number tokens numeral complete
  | @string parts bytes spelled =>
    have opened : lexer.step Token.quote = ⟨.string #[], tokens.toArray⟩ := by
      have ends : EndsNumber '"' := ⟨by decide, by decide, by decide⟩
      have read := stands.run_singleton ends
      rw [Lexer.run_singleton _ ends.small] at read
      exact read
    rw [List.foldl_cons, opened, foldl_string spelled, List.push_toArray]
    exact .between _

/-- A text is cut into the tokens that it is written in. -/
theorem stands_of_written {tokens : List Token} {bytes : List UInt8}
    (written : Token.Written tokens bytes) (apart : tokens.IsChain Apart) :
    Stands (bytes.foldl step {}) tokens := by
  induction written with
  | nil => exact .between []
  | blank _ blank ih =>
    rw [List.foldl_append, List.foldl_cons, List.foldl_nil, (ih apart).foldl_blank blank]
    exact .between _
  | token _ spelled ih =>
    obtain ⟨initial, -, last⟩ := List.isChain_append.mp apart
    rw [List.foldl_append]
    exact (ih initial).token spelled fun other found => last other found _ rfl

end Lexer

end Disassembler.Json
