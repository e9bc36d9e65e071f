import Disassembler.Proofs.Json.Encoding
import Disassembler.Proofs.Json.Tokens

/-!
# Cutting documents into tokens

The machine that cuts a text into tokens comes to the tokens of a value when it has read the text
of the value. Behind a number it does not know yet that the number is complete; the next byte tells
it. So a machine stands behind tokens if it is between tokens, or inside a number that may end.
-/

namespace Disassembler.Json

namespace Lexer

/-- The machine behind the bytes of a text. -/
def run (lexer : Lexer) (text : List Char) : Lexer := (octets text).foldl step lexer

/-- Two texts are read one after the other. -/
theorem run_append (lexer : Lexer) (first second : List Char) :
    lexer.run (first ++ second) = (lexer.run first).run second := by
  unfold run
  rw [octets_append, List.foldl_append]

/-- A character is read before the rest of a text. -/
theorem run_cons (lexer : Lexer) (c : Char) (rest : List Char) :
    lexer.run (c :: rest) = (lexer.run [c]).run rest := run_append lexer [c] rest

/-- The byte of a character of one byte is compared as that character. -/
theorem character_ofNat {c : Char} (small : c.toNat < 0x80) :
    character (UInt8.ofNat c.toNat) = c := by
  unfold character
  rw [StringPart.toNat_ofNat (by omega), Char.ofNat_toNat]

/-- A character of one byte is read in one step. -/
theorem run_singleton (lexer : Lexer) {c : Char} (small : c.toNat < 0x80) :
    lexer.run [c] = lexer.step (UInt8.ofNat c.toNat) := by
  unfold run
  rw [octets_singleton small]
  rfl

/-- Between tokens a character of one byte starts a token. -/
theorem run_between (tokens : Array Token) {c : Char} (small : c.toNat < 0x80) :
    run ⟨.between, tokens⟩ [c] = start tokens c := by
  rw [run_singleton _ small]
  show start tokens (character _) = _
  rw [character_ofNat small]

/-- Inside a number a character of one byte goes on with it, or ends it. -/
theorem run_number (tokens : Array Token) (stage : NumberStage) (numeral : Numeral) {c : Char}
    (small : c.toNat < 0x80) :
    run ⟨.number stage numeral, tokens⟩ [c] = stepNumber tokens stage numeral c := by
  rw [run_singleton _ small]
  show stepNumber tokens stage numeral (character _) = _
  rw [character_ofNat small]

/-- A character that no number goes on with. -/
structure EndsNumber (c : Char) : Prop where
  /-- It is one byte. -/
  small : c.toNat < 0x80
  /-- It is no digit. -/
  noDigit : NumberStage.digit? c = none
  /-- It is no point and no letter of an exponent. -/
  noMark : c ≠ '.' ∧ c ≠ 'e' ∧ c ≠ 'E'

/-- A number that may end does so before such a character. -/
theorem EndsNumber.next? {c : Char} (ends : EndsNumber c) {stage : NumberStage}
    (complete : stage.isComplete = true) (numeral : Numeral) : stage.next? numeral c = none := by
  obtain ⟨point, lower, upper⟩ := ends.noMark
  unfold NumberStage.next?
  rw [ends.noDigit]
  cases stage with
  | zero | whole | fraction => simp [point, lower, upper]
  | exponent => rfl
  | sign | point | mark | exponentSign => cases complete

/-- The machine stands behind tokens: between tokens, or inside the last one if it is a number that
may end. -/
inductive Stands : Lexer → List Token → Prop where
  /-- All tokens are complete. -/
  | between (tokens : List Token) : Stands ⟨.between, tokens.toArray⟩ tokens
  /-- The last token is a number. -/
  | number (tokens : List Token) {stage : NumberStage} (numeral : Numeral) :
      stage.isComplete = true →
        Stands ⟨.number stage numeral, tokens.toArray⟩ (tokens ++ [.number numeral])

/-- A machine that stands behind tokens starts the next token at a character that no number goes on
with. -/
theorem Stands.run_singleton {lexer : Lexer} {tokens : List Token} (stands : lexer.Stands tokens)
    {c : Char} (ends : EndsNumber c) : lexer.run [c] = start tokens.toArray c := by
  cases stands with
  | between => exact run_between _ ends.small
  | number tokens numeral complete =>
    have both : NumberStage.isComplete _ = true ∧ (NumberStage.digit? c).isNone = true :=
      ⟨complete, by rw [ends.noDigit]; rfl⟩
    rw [run_number _ _ _ ends.small, stepNumber, ends.next? complete]
    simp only [List.push_toArray]
    rw [if_pos both]

/-- At the end of the text the tokens are those that the machine stands behind. -/
theorem Stands.finish {lexer : Lexer} {tokens : List Token} (stands : lexer.Stands tokens) :
    lexer.finish = tokens := by
  cases stands with
  | between => rfl
  | number tokens numeral complete =>
    simp [Lexer.finish, complete]

end Lexer

end Disassembler.Json
