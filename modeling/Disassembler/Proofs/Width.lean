import Disassembler.Instruction
import Disassembler.Proofs.Header
import Disassembler.Proofs.Reading

/-!
# The width of instructions

`Layout.extent?` says how many words an instruction has, from the words that count its parts. The
readers of the operands agree with it for each layout: they take exactly these words, and an
instruction that lacks one of them, or one of its counts, is truncated.
-/

namespace Disassembler

/-- The number of arguments that the header at a target holds: in the third word of the header of a
function, in the fourth of the header of a function with several cases. -/
def Callee.headerArguments? (code : Array Word) (target : Word) : Option Word :=
  if code[target.toInt.toNat]? = some Opcode.functionStart.word then
    code[target.toInt.toNat + 2]?
  else code[target.toInt.toNat + 3]?

/-- The number of words of the instruction at an offset. There is none if the stream ends before a
word that counts a part of the instruction. -/
def Layout.extent? (layout : Layout) (code : Array Word) (offset : Nat) : Option Nat :=
  match layout with
  | .multiCallSite => do
    let target ← code[offset + 1]?
    let arguments ← Callee.headerArguments? code target
    return 2 + arguments.count
  | .coroutine => do
    let slots ← code[offset + 3]?
    return 4 + slots.count
  | .dispatchHeader => do
    let cases ← code[offset + 2]?
    let arguments ← code[offset + 3]?
    return 4 + (arguments.count + 1) * cases.count
  | .functionHeader => do
    let parameters ← code[offset + 2]?
    let results ← code[offset + 3 + parameters.count]?
    let owned ← code[offset + 5 + parameters.count + results.count]?
    return 6 + parameters.count + results.count + owned.count
  | layout => layout.fixedWidth?.map (1 + ·)

/-- A call that finds a callee finds the number of arguments in the header. -/
theorem Callee.headerArguments?_of_find? {code : Array Word} {target : Word} {callee : Callee}
    (found : find? code target = some callee) :
    headerArguments? code target = some callee.arguments := by
  obtain ⟨slot, header, -, arguments⟩ := find?_eq_some_iff.mp found
  unfold headerArguments?
  obtain ⟨atTarget, rfl⟩ | ⟨atTarget, rfl⟩ := header.kind
  · rw [if_pos atTarget]
    exact arguments
  · rw [if_neg]
    · exact arguments
    · rw [atTarget, Option.some_inj, Opcode.word_inj]
      decide

namespace Operands

open OperandReader

variable {words : OperandWords}

/-- A reader that only makes something of what another one reads takes the same words. -/
theorem takes_made {α β : Type} {reader : OperandReader α} {make : α → β} {read width : Nat}
    (taken : reader.Takes words read width) :
    (do return make (← reader)).Takes words read width :=
  taken.bind fun _ holds _ => takes_pure _ holds

/-- The layouts without counts take the words of their fixed width. -/
theorem takes_fixed {layout : Layout} {width : Nat} (holds : words.Holds 0)
    (fixed : layout.fixedWidth? = some width) (noCall : layout ≠ .callSite) :
    (read layout).Takes words 0 width := by
  have one {make : Word → Operands} : (do return make (← word)).Takes words 0 1 :=
    takes_made takes_word
  have two {make : Word → Word → Operands} :
      (do return make (← word) (← word)).Takes words 0 2 :=
    takes_word.bind fun _ _ _ => takes_made takes_word
  match layout, fixed with
  | .none, rfl => exact takes_pure _ holds
  | .int, rfl | .float32, rfl | .newStruct, rfl | .native, rfl | .variable, rfl | .string, rfl =>
    exact one
  | .int64, rfl | .float64, rfl | .intPair, rfl => exact two
  | .returnSite, rfl =>
    exact takes_word.bind fun _ _ _ => (takes_skip 1).bind fun _ held _ => takes_pure _ held
  | .newVector, rfl => exact (takes_skip 1).bind fun _ _ _ => takes_made takes_word
  | .callSite, _ => exact absurd rfl noCall

/-- A call with a header at its target takes the word of the target. -/
theorem takes_callSite {callee : Callee} {target : Word} (found : words.word? 0 = some target)
    (header : Callee.find? words.code target = some callee) :
    (read .callSite).Takes words 0 1 := by
  show (read .callSite).Takes words 0 (1 + 0)
  apply (takes_readCallee found header).bind
  rintro ⟨_, _⟩ holds _
  exact takes_pure _ holds

/-- A call that is followed by types takes the word of its target and as many types as the header
has arguments. -/
theorem takes_multiCallSite {callee : Callee} {target : Word} (found : words.word? 0 = some target)
    (header : Callee.find? words.code target = some callee) :
    (read .multiCallSite).Takes words 0 (1 + callee.arguments.count) := by
  apply (takes_readCallee found header).bind
  rintro ⟨again, target'⟩ _ done
  obtain ⟨found', header', -⟩ := readCallee_eq_ok_iff.mp done
  cases found.symm.trans found'
  cases header.symm.trans header'
  exact (takes_skip _).bind fun _ holds _ => takes_pure _ holds

/-- A function header takes its fixed words and its three lists. -/
theorem takes_functionHeader {parameters results owned : Word}
    (first : words.word? 1 = some parameters)
    (second : words.word? (2 + parameters.count) = some results)
    (third : words.word? (4 + parameters.count + results.count) = some owned) :
    readFunctionHeader.Takes words 0
      (5 + parameters.count + results.count + owned.count) := by
  have width : 5 + parameters.count + results.count + owned.count =
      1 + (1 + parameters.count + (1 + results.count + (1 + (1 + owned.count)))) := by omega
  rw [width]
  apply takes_word.bind
  intro _ _ _
  apply (takes_counted first).bind
  intro _ _ _
  rw [show 2 + parameters.count = 0 + 1 + (1 + parameters.count) by omega] at second
  apply (takes_counted second).bind
  intro _ _ _
  apply takes_word.bind
  intro _ _ _
  rw [show 4 + parameters.count + results.count =
    0 + 1 + (1 + parameters.count) + (1 + results.count) + 1 by omega] at third
  exact takes_made (takes_counted third)

/-- A function header without one of its three counts is truncated. -/
theorem truncates_functionHeader
    (missing : words.word? 1 = .none ∨ ∃ parameters, words.word? 1 = some parameters ∧
      (words.word? (2 + parameters.count) = .none ∨
        ∃ results, words.word? (2 + parameters.count) = some results ∧
          words.word? (4 + parameters.count + results.count) = .none)) :
    readFunctionHeader.Truncates words 0 := by
  apply takes_word.bind_truncates
  intro _ _ _
  obtain missing | ⟨parameters, first, missing⟩ := missing
  · exact (truncates_counted missing).bind
  apply (takes_counted first).bind_truncates
  intro _ _ _
  rw [show 2 + parameters.count = 0 + 1 + (1 + parameters.count) by omega] at missing
  obtain missing | ⟨results, second, missing⟩ := missing
  · exact (truncates_counted missing).bind
  apply (takes_counted second).bind_truncates
  intro _ _ _
  apply takes_word.bind_truncates
  intro _ _ _
  rw [show 4 + parameters.count + results.count =
    0 + 1 + (1 + parameters.count) + (1 + results.count) + 1 by omega] at missing
  exact (truncates_counted missing).bind

/-- A coroutine takes its fixed words and its slots. -/
theorem takes_coroutine {slots : Word} (counted : words.word? 2 = some slots) :
    (read .coroutine).Takes words 0 (3 + slots.count) := by
  rw [show 3 + slots.count = 1 + (1 + (1 + slots.count)) by omega]
  apply takes_word.bind
  intro _ _ _
  apply (takes_skip 1).bind
  intro _ _ _
  exact takes_made (takes_counted counted)

/-- A coroutine without the count of its slots is truncated. -/
theorem truncates_coroutine (missing : words.word? 2 = .none) :
    (read .coroutine).Truncates words 0 := by
  apply takes_word.bind_truncates
  intro _ _ _
  apply (takes_skip 1).bind_truncates
  intro _ _ _
  exact (truncates_counted missing).bind

/-- The header of a function with several cases takes its fixed words and a row of its table for
each case. -/
theorem takes_dispatchHeader {cases arguments : Word} (second : words.word? 1 = some cases)
    (third : words.word? 2 = some arguments) :
    (read .dispatchHeader).Takes words 0 (3 + (arguments.count + 1) * cases.count) := by
  rw [show 3 + (arguments.count + 1) * cases.count =
    1 + (1 + (1 + ((arguments.count + 1) * cases.count + 0))) by omega]
  apply takes_word.bind
  intro _ _ _
  apply takes_word.bind
  intro cases' _ done
  cases second.symm.trans (word_eq_ok_iff.mp done).1
  apply takes_word.bind
  intro arguments' _ done
  cases third.symm.trans (word_eq_ok_iff.mp done).1
  exact (takes_skip _).bind fun _ holds _ => takes_pure _ holds

/-- The header of a function with several cases is truncated if it lacks the number of its cases or
of its arguments. -/
theorem truncates_dispatchHeader (missing : words.word? 1 = .none ∨ words.word? 2 = .none) :
    (read .dispatchHeader).Truncates words 0 := by
  apply takes_word.bind_truncates
  intro _ _ _
  obtain missing | missing := missing
  · exact (takes_word.truncates (OperandWords.word?_eq_none_iff.mp missing)).bind
  apply takes_word.bind_truncates
  intro _ _ _
  exact (takes_word.truncates (OperandWords.word?_eq_none_iff.mp missing)).bind

/-- What a reader of operands does at the start, where an instruction has this extent: it takes all
words behind the opcode, or is truncated if the extent is not known. -/
def Spans {α : Type} (reader : OperandReader α) (words : OperandWords) : Option Nat → Prop
  | some width => ∃ behind, width = 1 + behind ∧ reader.Takes words 0 behind
  | .none => reader.Truncates words 0

/-- The extent of a function header, with places counted behind the opcode. -/
theorem extent?_functionHeader : Layout.extent? .functionHeader words.code words.offset = do
    let parameters ← words.word? 1
    let results ← words.word? (2 + parameters.count)
    let owned ← words.word? (4 + parameters.count + results.count)
    return 6 + parameters.count + results.count + owned.count := by
  unfold Layout.extent? OperandWords.word? OperandWords.place
  have second (count : Nat) : words.offset + 1 + (2 + count) = words.offset + 3 + count := by
    omega
  have third (first second : Nat) :
      words.offset + 1 + (4 + first + second) = words.offset + 5 + first + second := by omega
  simp only [second, third]

/-- A function header agrees with its extent. -/
theorem spans_functionHeader :
    Spans (read .functionHeader) words
      (Layout.extent? .functionHeader words.code words.offset) := by
  rw [extent?_functionHeader]
  cases first : words.word? 1 with
  | none => exact (truncates_functionHeader (Or.inl first)).bind
  | some parameters =>
    rw [Option.bind_eq_bind, Option.bind_some]
    cases second : words.word? (2 + parameters.count) with
    | none => exact (truncates_functionHeader (Or.inr ⟨_, first, Or.inl second⟩)).bind
    | some results =>
      rw [Option.bind_some]
      cases third : words.word? (4 + parameters.count + results.count) with
      | none =>
        exact (truncates_functionHeader (Or.inr ⟨_, first, Or.inr ⟨_, second, third⟩⟩)).bind
      | some owned => exact ⟨_, by omega, takes_made (takes_functionHeader first second third)⟩

/-- A coroutine agrees with its extent. -/
theorem spans_coroutine :
    Spans (read .coroutine) words (Layout.extent? .coroutine words.code words.offset) := by
  show Spans _ words (do
    let slots ← words.word? 2
    return 4 + slots.count)
  cases counted : words.word? 2 with
  | none => exact truncates_coroutine counted
  | some slots => exact ⟨_, by omega, takes_coroutine counted⟩

/-- The header of a function with several cases agrees with its extent. -/
theorem spans_dispatchHeader :
    Spans (read .dispatchHeader) words
      (Layout.extent? .dispatchHeader words.code words.offset) := by
  show Spans _ words (do
    let cases ← words.word? 1
    let arguments ← words.word? 2
    return 4 + (arguments.count + 1) * cases.count)
  cases second : words.word? 1 with
  | none => exact truncates_dispatchHeader (Or.inl second)
  | some cases =>
    rw [Option.bind_eq_bind, Option.bind_some]
    cases third : words.word? 2 with
    | none => exact truncates_dispatchHeader (Or.inr third)
    | some arguments => exact ⟨_, by omega, takes_dispatchHeader second third⟩

/-- A call agrees with its extent, unless there is no header at its target. -/
theorem spans_callSite
    (header : ∀ target, words.word? 0 = some target →
      ∃ callee, Callee.find? words.code target = some callee) :
    Spans (read .callSite) words (Layout.extent? .callSite words.code words.offset) := by
  refine ⟨1, rfl, ?_⟩
  cases found : words.word? 0 with
  | none =>
    exact ⟨fun holds => absurd holds (OperandWords.word?_eq_none_iff.mp found),
      fun _ => (truncates_readCallee found).bind⟩
  | some target =>
    obtain ⟨callee, called⟩ := header target found
    exact takes_callSite found called

/-- A call that is followed by types agrees with its extent, unless there is no header at its
target. -/
theorem spans_multiCallSite
    (header : ∀ target, words.word? 0 = some target →
      ∃ callee, Callee.find? words.code target = some callee) :
    Spans (read .multiCallSite) words (Layout.extent? .multiCallSite words.code words.offset) := by
  show Spans _ words (do
    let target ← words.word? 0
    let arguments ← Callee.headerArguments? words.code target
    return 2 + arguments.count)
  cases found : words.word? 0 with
  | none => exact (truncates_readCallee found).bind
  | some target =>
    obtain ⟨callee, called⟩ := header target found
    rw [Option.bind_eq_bind, Option.bind_some, Callee.headerArguments?_of_find? called]
    exact ⟨_, by omega, takes_multiCallSite found called⟩

/-- The operands of each layout agree with its extent. -/
theorem spans_read (layout : Layout) (holds : words.Holds 0)
    (header : layout = .callSite ∨ layout = .multiCallSite → ∀ target,
      words.word? 0 = some target → ∃ callee, Callee.find? words.code target = some callee) :
    Spans (read layout) words (layout.extent? words.code words.offset) := by
  have fixed (noCall : layout ≠ .callSite) {width : Nat} (known : layout.fixedWidth? = some width) :
      Spans (read layout) words (layout.fixedWidth?.map (1 + ·)) := by
    rw [known]
    exact ⟨width, rfl, takes_fixed holds known noCall⟩
  cases layout with
  | callSite => exact spans_callSite (header (Or.inl rfl))
  | multiCallSite => exact spans_multiCallSite (header (Or.inr rfl))
  | functionHeader => exact spans_functionHeader
  | coroutine => exact spans_coroutine
  | dispatchHeader => exact spans_dispatchHeader
  | _ => exact fixed (by decide) rfl

end Operands

end Disassembler
