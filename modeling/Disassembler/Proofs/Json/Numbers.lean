import Disassembler.Proofs.Json.Grammar
import Disassembler.Proofs.Json.Lexing

/-!
# Reading numbers

The machine takes all characters of a number that is written by the rules, and comes to a stage at
which the number may end. No digit follows a zero that starts a number, so it takes all digits
before the point because the first one is zero only in zero itself. A whole number is printed by the
rules.
-/

namespace Disassembler.Json

namespace Numeral

/-- The digits of a number are digits, and they start with zero in zero only. -/
theorem wholePart_digits (value : Nat) : WholePart (digits value) := by
  have written (value : Nat) :
      AreDigits (digits value) ∧ (0 < value → (digits value).getLast? ≠ some 0) := by
    fun_induction digits value with
    | case1 value small =>
      refine ⟨areDigits_singleton small, fun positive => ?_⟩
      simpa using Nat.ne_of_gt positive
    | case2 value large ih =>
      obtain ⟨others, nonzero⟩ := ih
      exact ⟨others.cons (Nat.mod_lt _ (by decide)),
        fun _ => others.getLast?_cons_ne (nonzero (by omega)) _⟩
  rcases Nat.eq_zero_or_pos value with rfl | positive
  · rw [digits, if_pos (by decide)]
    exact wholePart_zero
  · exact (written value).1.wholePart ((written value).2 positive)

/-- A number is printed in its digits. -/
theorem digitCharacters_digits (value : Nat) :
    digitCharacters (digits value) = Nat.toDigits 10 value := by
  fun_induction digits value with
  | case1 value small =>
    rw [Nat.toDigits_of_lt_base small]
    rfl
  | case2 value large ih =>
    rw [Nat.toDigits_of_base_le (by decide) (by omega), digitCharacters_cons, ih]

/-- A whole number is printed as its digits behind its sign. -/
theorem integerCharacters_eq (value : Int) :
    integerCharacters value =
      signCharacters (value < 0) ++ digitCharacters (digits value.natAbs) := by
  rw [digitCharacters_digits]
  cases value with
  | ofNat value => rfl
  | negSucc value =>
    rw [decide_eq_true (Int.negSucc_lt_zero value), Int.natAbs_negSucc]
    rfl

/-- A whole number is printed by the rules. -/
theorem spelled_ofInt (value : Int) : (ofInt value).Spelled (integerCharacters value) := by
  have spelled := @Spelled.parts (value < 0) _ _ _ _ _ _ (wholePart_digits value.natAbs)
    .absent .absent
  rw [List.append_nil, List.append_nil, ← integerCharacters_eq] at spelled
  exact spelled

end Numeral

namespace Lexer

open Numeral

variable {tokens : Array Token} {stage stage' : NumberStage} {numeral numeral' : Numeral}

/-- The character of a digit stands for the digit. -/
theorem digit?_digitChar {digit : Nat} (small : digit < 10) :
    NumberStage.digit? (Nat.digitChar digit) = some digit :=
  (by decide : ∀ n < 10, NumberStage.digit? (Nat.digitChar n) = some n) digit small

/-- The character of a digit is one byte. -/
theorem digitChar_small {digit : Nat} (small : digit < 10) : (Nat.digitChar digit).toNat < 0x80 :=
  (by decide : ∀ n < 10, (Nat.digitChar n).toNat < 0x80) digit small

/-- A character that can follow goes on with the number. -/
theorem run_next {c : Char} (small : c.toNat < 0x80)
    (next : stage.next? numeral c = some (stage', numeral')) :
    run ⟨.number stage numeral, tokens⟩ [c] = ⟨.number stage' numeral', tokens⟩ := by
  rw [run_number _ _ _ small, stepNumber, next]

/-- A machine for which a digit is the first one of a number. -/
def AtNumber (lexer : Lexer) (tokens : Array Token) (numeral : Numeral) : Prop :=
  ∀ digit < 10, lexer.run [Nat.digitChar digit] =
    ⟨.number (if digit = 0 then .zero else .whole) { numeral with whole := [digit] }, tokens⟩

/-- Behind a minus sign a digit is the first one. -/
theorem atNumber_sign (tokens : Array Token) (negative : Bool) :
    AtNumber ⟨.number .sign { negative }, tokens⟩ tokens { negative } := by
  intro digit small
  refine run_next (digitChar_small small) ?_
  unfold NumberStage.next?
  rw [digit?_digitChar small]

/-- Between tokens a digit is the first one. -/
theorem atNumber_between (tokens : Array Token) : AtNumber ⟨.between, tokens⟩ tokens {} := by
  intro digit small
  rw [run_between _ (digitChar_small small)]
  -- Only the characters of the ten digits come here, and none of them starts another token.
  match digit, small with
  | 0, _ | 1, _ | 2, _ | 3, _ | 4, _ | 5, _ | 6, _ | 7, _ | 8, _ | 9, _ => rfl

/-- At a stage each digit is added to the number and leads to another stage. -/
def Adds (stage stage' : NumberStage) (add : Nat → Numeral → Numeral) : Prop :=
  ∀ numeral, ∀ digit < 10,
    stage.next? numeral (Nat.digitChar digit) = some (stage', add digit numeral)

/-- The digits of a number are added one after the other. -/
theorem Adds.run {add : Nat → Numeral → Numeral} (first : Adds stage stage' add)
    (more : Adds stage' stage' add) {digits : List Nat} (written : AreDigits digits) :
    run ⟨.number stage numeral, tokens⟩ (digitCharacters digits) =
      ⟨.number stage' (digits.foldr add numeral), tokens⟩ := by
  obtain ⟨nonempty, small⟩ := written
  induction digits with
  | nil => exact absurd rfl nonempty
  | cons digit rest ih =>
    obtain ⟨last, others⟩ := List.forall_mem_cons.mp small
    have ascii := digitChar_small last
    cases rest with
    | nil => exact run_next ascii (first numeral digit last)
    | cons second rest =>
      rw [digitCharacters_cons, run_append, ih (List.cons_ne_nil _ _) others]
      exact run_next ascii (more _ digit last)

/-- Digits before the point go on with a number that does not start with zero. -/
theorem adds_whole : Adds .whole .whole fun digit numeral =>
    { numeral with whole := digit :: numeral.whole } := by
  intro numeral digit small
  unfold NumberStage.next?
  rw [digit?_digitChar small]

/-- Digits behind the point are those of the fraction. -/
theorem adds_fraction (atFraction : stage = .point ∨ stage = .fraction) :
    Adds stage .fraction fun digit numeral =>
      { numeral with fraction := digit :: numeral.fraction } := by
  intro numeral digit small
  unfold NumberStage.next?
  rw [digit?_digitChar small]
  rcases atFraction with rfl | rfl <;> rfl

/-- Digits behind the letter of an exponent, or behind its sign, are those of the exponent. -/
theorem adds_exponent (atExponent : stage = .mark ∨ stage = .exponentSign ∨ stage = .exponent) :
    Adds stage .exponent fun digit numeral =>
      { numeral with exponent := digit :: numeral.exponent } := by
  intro numeral digit small
  unfold NumberStage.next?
  rw [digit?_digitChar small]
  rcases atExponent with rfl | rfl | rfl <;> rfl

/-- Digits that are added in front of the fraction of a number. -/
theorem foldr_fraction (digits : List Nat) :
    digits.foldr (fun digit numeral => { numeral with fraction := digit :: numeral.fraction })
        numeral =
      { numeral with fraction := digits ++ numeral.fraction } := by
  induction digits with
  | nil => rfl
  | cons digit rest ih => rw [List.foldr_cons, ih]; rfl

/-- Digits that are added in front of the exponent of a number. -/
theorem foldr_exponent (digits : List Nat) :
    digits.foldr (fun digit numeral => { numeral with exponent := digit :: numeral.exponent })
        numeral =
      { numeral with exponent := digits ++ numeral.exponent } := by
  induction digits with
  | nil => rfl
  | cons digit rest ih => rw [List.foldr_cons, ih]; rfl

/-- The stages at which the digits before the point are complete. -/
def AfterWhole (stage : NumberStage) : Prop := stage = .zero ∨ stage = .whole

/-- Digits that start with a digit other than zero are read in their order. -/
theorem AtNumber.run_nonzero {lexer : Lexer} (starts : lexer.AtNumber tokens numeral)
    {digits : List Nat} (written : AreDigits digits) (nonzero : digits.getLast? ≠ some 0) :
    lexer.run (digitCharacters digits) =
      ⟨.number .whole { numeral with whole := digits }, tokens⟩ := by
  obtain ⟨nonempty, small⟩ := written
  induction digits with
  | nil => exact absurd rfl nonempty
  | cons digit rest ih =>
    obtain ⟨last, others⟩ := List.forall_mem_cons.mp small
    cases rest with
    | nil =>
      have positive : digit ≠ 0 := fun zero => nonzero (congrArg some zero)
      have read := starts digit last
      rw [if_neg positive] at read
      exact read
    | cons second rest =>
      rw [List.getLast?_cons_cons] at nonzero
      rw [digitCharacters_cons, run_append, ih nonzero (List.cons_ne_nil _ _) others]
      exact run_next (digitChar_small last) (adds_whole _ digit last)

/-- The digits before the point are read in their order. -/
theorem AtNumber.run_whole {lexer : Lexer} (starts : lexer.AtNumber tokens numeral)
    {digits : List Nat} (written : WholePart digits) :
    ∃ stage, AfterWhole stage ∧ lexer.run (digitCharacters digits) =
      ⟨.number stage { numeral with whole := digits }, tokens⟩ := by
  by_cases zero : digits.getLast? = some 0
  · obtain rfl := written.noLeadingZero zero
    exact ⟨.zero, Or.inl rfl, starts 0 (by decide)⟩
  · exact ⟨.whole, Or.inr rfl, starts.run_nonzero written.toAreDigits zero⟩

/-- The stages at which an exponent may follow. -/
def AfterFraction (stage : NumberStage) : Prop := AfterWhole stage ∨ stage = .fraction

/-- A fraction is read behind the digits before the point. -/
theorem run_fraction (tokens : Array Token) (numeral : Numeral) (after : AfterWhole stage)
    (none : numeral.fraction = []) {digits : List Nat} {text : List Char}
    (written : FractionPart digits text) :
    ∃ stage', AfterFraction stage' ∧ run ⟨.number stage numeral, tokens⟩ text =
      ⟨.number stage' { numeral with fraction := digits }, tokens⟩ := by
  cases written with
  | absent =>
    refine ⟨stage, Or.inl after, ?_⟩
    rw [← none]
    rfl
  | written digits =>
    have point : stage.next? numeral '.' = some (.point, numeral) := by
      rcases after with rfl | rfl <;> rfl
    refine ⟨.fraction, Or.inr rfl, ?_⟩
    rw [run_cons, run_next (by decide) point,
      (adds_fraction (Or.inl rfl)).run (adds_fraction (Or.inr rfl)) digits, foldr_fraction, none,
      List.append_nil]

/-- The sign of an exponent is read behind its letter. -/
theorem run_exponentSign (tokens : Array Token) (plus : numeral.negativeExponent = false)
    {negative : Bool} {text : List Char} (written : ExponentSign negative text) :
    ∃ stage, (stage = .mark ∨ stage = .exponentSign ∨ stage = .exponent) ∧
      run ⟨.number .mark numeral, tokens⟩ text =
        ⟨.number stage { numeral with negativeExponent := negative }, tokens⟩ := by
  cases written with
  | none =>
    refine ⟨.mark, Or.inl rfl, ?_⟩
    rw [← plus]
    rfl
  | plus =>
    refine ⟨.exponentSign, Or.inr (Or.inl rfl), ?_⟩
    rw [← plus]
    exact run_next (by decide) rfl
  | minus => exact ⟨.exponentSign, Or.inr (Or.inl rfl), run_next (by decide) rfl⟩

/-- An exponent is read behind the digits of a number. -/
theorem run_exponent (tokens : Array Token) (numeral : Numeral) (after : AfterFraction stage)
    (plus : numeral.negativeExponent = false) (none : numeral.exponent = []) {negative : Bool}
    {digits : List Nat} {text : List Char}
    (written : ExponentPart negative digits text) :
    ∃ stage' : NumberStage, stage'.isComplete = true ∧
      run ⟨.number stage numeral, tokens⟩ text =
        ⟨.number stage' { numeral with negativeExponent := negative, exponent := digits },
          tokens⟩ := by
  cases written with
  | absent =>
    refine ⟨stage, ?_, ?_⟩
    · rcases after with (rfl | rfl) | rfl <;> rfl
    · rw [← plus, ← none]
      rfl
  | @written _ _ letter sign isLetter signed digits =>
    have ascii : letter.toNat < 0x80 := by
      rcases isLetter with rfl | rfl <;> decide
    have mark : stage.next? numeral letter = some (.mark, numeral) := by
      rcases after with (rfl | rfl) | rfl <;> rcases isLetter with rfl | rfl <;> rfl
    obtain ⟨stage', atExponent, read⟩ := run_exponentSign tokens plus signed
    refine ⟨.exponent, rfl, ?_⟩
    rw [run_cons, run_next ascii mark, run_append, read,
      (adds_exponent atExponent).run (adds_exponent (Or.inr (Or.inr rfl))) digits, foldr_exponent]
    simp only [none, List.append_nil]

/-- The machine takes all characters of a number, and the number may end behind them. -/
theorem run_numeral (tokens : Array Token) {text : List Char} (written : numeral.Spelled text) :
    ∃ stage : NumberStage, stage.isComplete = true ∧
      run ⟨.between, tokens⟩ text = ⟨.number stage numeral, tokens⟩ := by
  cases written with
  | @parts negative _ whole fraction _ _ _ wholePart fractionPart exponentPart =>
    have signed : ∃ lexer : Lexer,
        run ⟨.between, tokens⟩ (signCharacters negative) = lexer ∧
          lexer.AtNumber tokens { negative } := by
      cases negative with
      | false => exact ⟨_, rfl, atNumber_between tokens⟩
      | true => exact ⟨_, run_between tokens (by decide), atNumber_sign tokens true⟩
    obtain ⟨lexer, sign, starts⟩ := signed
    obtain ⟨atWhole, afterWhole, readWhole⟩ := starts.run_whole wholePart
    obtain ⟨atFraction, afterFraction, readFraction⟩ :=
      run_fraction tokens { negative, whole } afterWhole rfl fractionPart
    obtain ⟨stage, complete, readExponent⟩ :=
      run_exponent tokens { negative, whole, fraction } afterFraction rfl rfl exponentPart
    refine ⟨stage, complete, ?_⟩
    rw [run_append, run_append, run_append, sign, readWhole, readFraction]
    exact readExponent

/-- Behind the characters of a whole number the machine stands behind its token. -/
theorem stands_integer (tokens : List Token) (value : Int) :
    Stands (run ⟨.between, tokens.toArray⟩ (integerCharacters value))
      (tokens ++ [.number (Numeral.ofInt value)]) := by
  obtain ⟨stage, complete, read⟩ := run_numeral tokens.toArray (spelled_ofInt value)
  rw [read]
  exact .number tokens _ complete

end Lexer

end Disassembler.Json
