import Disassembler.Proofs.Json.Contexts

/-!
# Texts at the place of a number

A text of the characters that numbers are made of may be one number, or several with nothing between
them, or it has a fault. Between the texts that stand around a number in a document it makes a
document only if it is one number. This is an invariant of the machine that cuts texts into tokens:
behind such characters it is inside a number, with all that is before it cut into numbers.
-/

namespace Disassembler.Json

/-- The characters that numbers are made of. -/
def Numeral.alphabet : List Char :=
  ['0', '1', '2', '3', '4', '5', '6', '7', '8', '9', '+', '-', '.', 'e', 'E']

namespace Lexer

/-- What the machine has read behind characters of numbers: numbers and the beginning of another
one, which is all of the text if there are no others, or a fault. -/
inductive Numbers : Lexer → List Char → Prop where
  /-- Inside a number, behind others. -/
  | begun (numbers : List Numeral) {stage : NumberStage} {numeral : Numeral} {text : List Char} :
      (numbers = [] → Numeral.Begun stage numeral text) →
      Numbers ⟨.number stage numeral, (numbers.map Token.number).toArray⟩ text
  /-- Behind a fault. -/
  | broken {tokens : Array Token} {text : List Char} : .fault ∈ tokens.toList →
      Numbers ⟨.broken, tokens⟩ text

variable {c : Char} {text : List Char} {lexer : Lexer}

/-- The characters of numbers are single bytes. -/
theorem small_of_mem_alphabet (known : c ∈ Numeral.alphabet) : c.toNat < 0x80 := by
  have all : (Numeral.alphabet.all fun c => c.toNat < 0x80) = true := by decide
  simpa using List.all_eq_true.mp all c known

/-- The machine that gives up has met a fault. -/
theorem numbers_fail (tokens : Array Token) (text : List Char) : (fail tokens).Numbers text := by
  apply Numbers.broken
  rw [Array.toList_push]
  exact List.mem_append_right _ (List.mem_singleton_self _)

/-- Behind numbers, a character of numbers starts another one or is a fault. -/
theorem numbers_start (numbers : List Numeral) (known : c ∈ Numeral.alphabet)
    (first : numbers = [] → text = []) :
    (start (numbers.map Token.number).toArray c).Numbers (text ++ [c]) := by
  cases read : NumberStage.digit? c with
  | some digit =>
    obtain ⟨small, rfl⟩ := Numeral.eq_digitChar_of_digit? read
    have starts := atNumber_between (numbers.map Token.number).toArray digit small
    rw [run_between _ (digitChar_small small)] at starts
    rw [starts]
    refine .begun numbers fun none => ?_
    rw [first none]
    exact Numeral.begun_of_digit false small
  | none =>
    have others : (Numeral.alphabet.all fun c => (NumberStage.digit? c).isSome || c == '-' ||
        ['+', '.', 'e', 'E'].contains c) = true := by decide
    have other : c = '-' ∨ c ∈ ['+', '.', 'e', 'E'] := by
      simpa [read] using List.all_eq_true.mp others c known
    have fails : ∀ c ∈ ['+', '.', 'e', 'E'], ∀ tokens, start tokens c = fail tokens := by
      simp only [List.forall_mem_cons, List.not_mem_nil, false_implies, implies_true, and_true]
      exact ⟨fun _ => rfl, fun _ => rfl, fun _ => rfl, fun _ => rfl⟩
    rcases other with rfl | other
    · refine .begun numbers fun none => ?_
      rw [first none]
      exact .sign
    · rw [fails c other]
      exact numbers_fail _ _

/-- Each character of numbers goes on with the last number, starts another one or is a fault. -/
theorem Numbers.step (numbers : lexer.Numbers text) (known : c ∈ Numeral.alphabet) :
    (lexer.run [c]).Numbers (text ++ [c]) := by
  have small := small_of_mem_alphabet known
  cases numbers with
  | @begun numbers stage numeral _ begun =>
    rw [run_number _ _ _ small, stepNumber]
    cases next : stage.next? numeral c with
    | some following => exact .begun numbers fun none => (begun none).next next
    | none =>
      have pushed : (numbers.map Token.number).toArray.push (.number numeral) =
          ((numbers ++ [numeral]).map Token.number).toArray := by simp
      simp only [pushed]
      split
      · exact numbers_start _ known fun none => absurd none (by simp)
      · exact numbers_fail _ _
  | broken fault =>
    rw [run_singleton _ small]
    exact .broken fault

/-- Behind a text of characters of numbers there are numbers, or a fault. -/
theorem numbers_run (nonempty : text ≠ []) (known : ∀ c ∈ text, c ∈ Numeral.alphabet) :
    (run {} text).Numbers text := by
  have behind (rest before : List Char) (lexer : Lexer) (numbers : lexer.Numbers before)
      (known : ∀ c ∈ rest, c ∈ Numeral.alphabet) : (lexer.run rest).Numbers (before ++ rest) := by
    induction rest generalizing before lexer with
    | nil =>
      rw [List.append_nil]
      exact numbers
    | cons c rest ih =>
      obtain ⟨first, others⟩ := List.forall_mem_cons.mp known
      rw [run_cons, List.append_cons]
      exact ih _ _ (numbers.step first) others
  cases text with
  | nil => exact absurd rfl nonempty
  | cons c rest =>
    obtain ⟨first, others⟩ := List.forall_mem_cons.mp known
    have started : (run {} [c]).Numbers [c] := by
      have between : run {} [c] = start #[] c := run_between #[] (small_of_mem_alphabet first)
      rw [between]
      exact numbers_start [] first fun _ => rfl
    rw [run_cons]
    exact behind rest [c] _ started others

/-- A number that may not end yet does not go on with a character other than a digit and a sign. -/
theorem next?_of_incomplete {stage : NumberStage} (incomplete : stage.isComplete = false)
    (numeral : Numeral) (noDigit : NumberStage.digit? c = none) (noSign : c ≠ '+' ∧ c ≠ '-') :
    stage.next? numeral c = none := by
  unfold NumberStage.next?
  rw [noDigit]
  cases stage with
  | mark => simp [noSign]
  | sign | point | exponentSign => rfl
  | zero | whole | fraction | exponent => cases incomplete

/-- Behind a fault nothing is read. -/
theorem foldl_broken (tokens : Array Token) (bytes : List UInt8) :
    bytes.foldl step ⟨.broken, tokens⟩ = ⟨.broken, tokens⟩ := by
  induction bytes with
  | nil => rfl
  | cons byte rest ih => exact ih

/-- The first byte of a text that starts with a mark ends a number and is no sign. -/
theorem ends_of_written {token : Token} {rest : List Token} {bytes : List UInt8}
    (written : Token.Written (token :: rest) bytes) (known : (token, c) ∈ Token.marks) :
    ∃ byte others, bytes = byte :: others ∧ EndsNumber (character byte) ∧
      character byte ≠ '+' ∧ character byte ≠ '-' := by
  have blanks : ∀ byte ∈ Token.blanks, (character byte).toNat < 0x80 ∧
      NumberStage.digit? (character byte) = none ∧ (character byte ≠ '.' ∧
        character byte ≠ 'e' ∧ character byte ≠ 'E') ∧
      character byte ≠ '+' ∧ character byte ≠ '-' := by decide +kernel
  have marks : ∀ pair ∈ Token.marks, pair.2.toNat < 0x80 ∧
      NumberStage.digit? pair.2 = none ∧ (pair.2 ≠ '.' ∧ pair.2 ≠ 'e' ∧ pair.2 ≠ 'E') ∧
      pair.2 ≠ '+' ∧ pair.2 ≠ '-' := by decide
  obtain ⟨byte, others, rfl, blank | ⟨c', known', rfl⟩⟩ := written.exists_cons known
  · obtain ⟨small, noDigit, noMark, noSign⟩ := blanks byte blank
    exact ⟨byte, others, rfl, ⟨small, noDigit, noMark⟩, noSign⟩
  · obtain ⟨small, noDigit, noMark, noSign⟩ := marks _ known'
    refine ⟨_, others, rfl, ?_⟩
    rw [character_ofNat small]
    exact ⟨⟨small, noDigit, noMark⟩, noSign⟩

/-- Behind characters of numbers, a text that starts with a mark ends the last number, or there is a
fault. -/
theorem Numbers.finish (numbers : lexer.Numbers text) {token : Token} {rest : List Token}
    {behind : List UInt8} (written : Token.Written (token :: rest) behind)
    (known : (token, c) ∈ Token.marks) :
    .fault ∈ (behind.foldl Lexer.step lexer).finish ∨
      ∃ (others : List Numeral) (numeral : Numeral) (more : List Token),
        (behind.foldl Lexer.step lexer).finish =
          others.map Token.number ++ .number numeral :: more ∧
        (others = [] → numeral.Spelled text) := by
  obtain ⟨byte, following, rfl, ends, noSign⟩ := ends_of_written written known
  cases numbers with
  | broken fault =>
    rw [foldl_broken]
    exact .inl fault
  | @begun numbers stage numeral _ begun =>
    have taken : Lexer.step ⟨.number stage numeral, (numbers.map Token.number).toArray⟩ byte =
        stepNumber (numbers.map Token.number).toArray stage numeral (character byte) := rfl
    rw [List.foldl_cons, taken, stepNumber]
    cases complete : stage.isComplete with
    | false =>
      rw [next?_of_incomplete complete numeral ends.noDigit noSign]
      simp only [Bool.false_eq_true, false_and, ↓reduceIte, fail, foldl_broken]
      left
      simp [Lexer.finish]
    | true =>
      rw [ends.next? complete]
      simp only [ends.noDigit, Option.isNone_none, and_self, ↓reduceIte]
      -- What is behind the number is cut as it would be without the tokens before it.
      have apart : start ((numbers.map Token.number).toArray.push (.number numeral))
            (character byte) =
          (start #[] (character byte)).after
            ((numbers.map Token.number).toArray.push (.number numeral)) := by
        rw [after_start, Array.append_empty]
      rw [apart, after_foldl, finish_after]
      right
      refine ⟨numbers, numeral, (following.foldl Lexer.step (start #[] (character byte))).finish,
        ?_, fun none => (begun none).spelled complete⟩
      simp

end Lexer

namespace Context

variable {context : Context} {before behind : List UInt8} {numeral : Numeral} {text : List Char}

/-- No two numbers follow each other before a place. -/
theorem isChain_front (context : Context) : context.front.IsChain Lexer.Apart := by
  have chain := (context.fill .null).isChain_tokens
  rw [tokens_fill, List.append_assoc] at chain
  exact (List.isChain_append.mp chain).1

/-- Between the texts around the place of a number, characters of numbers make a document exactly if
they are one number, and then the document has that number at the place. -/
theorem Around.document_iff (around : context.Around before behind) (inside : context ≠ .whole)
    (intact : (context.fill (.number numeral)).intact = true) (nonempty : text ≠ [])
    (known : ∀ c ∈ text, c ∈ Numeral.alphabet) {reading : Reading} :
    reading.Document (before ++ octets text ++ behind) ↔
      ∃ numeral : Numeral, numeral.Spelled text ∧ reading = context.fill (.number numeral) := by
  have documented {numeral' : Numeral} (spelled : numeral'.Spelled text) :
      (context.fill (.number numeral')).Document (before ++ octets text ++ behind) :=
    around.document (intact_fill intact rfl) spelled
  constructor
  · intro document
    obtain ⟨token, c, rest, first, mark⟩ := exists_back inside
    have cut : Token.ofBytes (before ++ octets text ++ behind) =
        context.front ++ (behind.foldl Lexer.step (Lexer.run {} text)).finish := by
      rw [List.append_assoc, Token.ofBytes_append around.front context.isChain_front
        context.getLast?_front, Token.ofBytes, List.foldl_append]
      rfl
    have tokens := Token.ofBytes_of_written document.written reading.isChain_tokens
    rw [cut] at tokens
    have back := around.back
    rw [first] at back
    have spelled : ∃ numeral' : Numeral, numeral'.Spelled text := by
      rcases (Lexer.numbers_run nonempty known).finish back mark with fault | ⟨others, last, more,
        read, spelled⟩
      · refine absurd ?_ (Reading.fault_notMem_tokens document.intact)
        rw [← tokens]
        exact List.mem_append_right _ fault
      · cases others with
        | nil => exact ⟨last, spelled rfl⟩
        | cons number others =>
          -- Two numbers would follow each other.
          have chain := reading.isChain_tokens
          rw [← tokens, read] at chain
          have behindFront := (List.isChain_append.mp chain).2.1
          cases others with
          | nil => exact absurd rfl (behindFront.rel number last rfl)
          | cons second others => exact absurd rfl (behindFront.rel number second rfl)
    obtain ⟨numeral', spelled⟩ := spelled
    refine ⟨numeral', spelled, ?_⟩
    have same := (Reading.document_iff.mp (documented spelled)).1
    rw [(Reading.document_iff.mp document).1] at same
    exact congrArg Prod.fst same
  · rintro ⟨numeral', spelled, rfl⟩
    exact documented spelled

end Context

end Disassembler.Json
