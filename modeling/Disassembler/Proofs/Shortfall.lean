import Disassembler.Proofs.Containment
import Disassembler.Proofs.Embedding
import Disassembler.Proofs.MachineAgreement

/-!
# The words that an instruction lacks

A truncated instruction says how many words it needs. It is never too many: as long as fewer words
are put behind the stream, whatever they are, the instruction stays truncated and needs fewer words
by exactly as many. It can be too few: only blocks are asked for as a whole, and all other operands
one by one, so an instruction with a fixed number of operands says that it needs one word however
many are missing. A machine with 64-bit cursors reports the same.
-/

namespace Disassembler

namespace OperandReader

variable {α β : Type} {reader : OperandReader α} {next : α → OperandReader β}

/-- A reader asks for its words one by one: started in the stream it ends there, or it lacks just
the first word behind the stream. -/
structure OneByOne (reader : OperandReader α) : Prop where
  /-- The reader does not leave the stream. -/
  holds : ∀ {words read value after}, words.Holds read →
    reader words read = .ok (value, after) → words.Holds after
  /-- The reader lacks one word. -/
  lacks : ∀ {words read fault}, words.Holds read → reader words read = .error fault →
    fault = .truncated words.offset 1

/-- A read that goes one word too far lacks one word. -/
theorem truncatedBefore_succ {words : OperandWords} {read : Nat} (held : words.Holds read)
    (missing : ¬ words.Holds (read + 1)) :
    words.truncatedBefore (words.place (read + 1)) = .truncated words.offset 1 := by
  unfold OperandWords.truncatedBefore
  unfold OperandWords.Holds OperandWords.place at *
  congr 1
  omega

/-- Reading nothing lacks nothing. -/
theorem oneByOne_pure (value : α) : (Pure.pure value : OperandReader α).OneByOne where
  holds held done := by
    cases done
    exact held
  lacks _ failed := by cases failed

/-- One word is asked for alone. -/
theorem oneByOne_word : word.OneByOne where
  holds _ done := by
    obtain ⟨found, rfl⟩ := word_eq_ok_iff.mp done
    exact OperandWords.holds_of_word? found
  lacks {words read fault} held failed := by
    cases found : words.word? read with
    | some value =>
      rw [word_eq_ok_iff.mpr ⟨found, rfl⟩] at failed
      cases failed
    | none =>
      rw [word_of_missing found] at failed
      cases failed
      exact truncatedBefore_succ held (OperandWords.word?_eq_none_iff.mp found)

/-- A block of one word is asked for alone. -/
theorem oneByOne_skip : (skip 1).OneByOne where
  holds _ done := by
    obtain ⟨holds, rfl⟩ := skip_eq_ok_iff.mp done
    exact holds
  lacks held failed := by
    unfold skip at failed
    split at failed
    · cases failed
    · rename_i missing
      cases failed
      exact truncatedBefore_succ held missing

/-- The words of a list are asked for one by one. -/
theorem oneByOne_list (length : Nat) : (list length).OneByOne where
  holds _ done := by
    obtain ⟨holds, rfl, -⟩ := list_eq_ok_iff.mp done
    exact holds
  lacks _ failed := by
    unfold list OperandWords.truncatedBefore at failed
    split at failed
    · cases failed
    · cases failed
      congr 1
      omega

/-- A sequence asks for its words one by one if both parts do. -/
theorem OneByOne.bind (head : reader.OneByOne) (tail : ∀ value, (next value).OneByOne) :
    (reader >>= next).OneByOne where
  holds held done := by
    obtain ⟨middle, between, first, second⟩ := bind_eq_ok_iff.mp done
    exact (tail middle).holds (head.holds held first) second
  lacks {words read fault} held failed := by
    cases first : reader words read with
    | error fault' =>
      rw [bind_of_error first] at failed
      cases failed
      exact head.lacks held first
    | ok result =>
      rw [bind_of_ok first] at failed
      exact (tail result.1).lacks (head.holds held first) failed

end OperandReader

namespace Operands

open OperandReader

/-- All operands but those of calls and of functions with several cases are asked for one by one. -/
theorem oneByOne_read {layout : Layout}
    (other : layout ∉ [.callSite, .multiCallSite, .dispatchHeader]) : (read layout).OneByOne := by
  have one {make : Word → Operands} : (do return make (← word)).OneByOne :=
    oneByOne_word.bind fun _ => oneByOne_pure _
  have two {make : Word → Word → Operands} : (do return make (← word) (← word)).OneByOne :=
    oneByOne_word.bind fun _ => oneByOne_word.bind fun _ => oneByOne_pure _
  have list : counted.OneByOne := oneByOne_word.bind fun length => oneByOne_list length.count
  match layout with
  | .none => exact oneByOne_pure _
  | .int | .float32 | .newStruct | .native | .variable | .string => exact one
  | .int64 | .float64 | .intPair => exact two
  | .returnSite =>
    exact oneByOne_word.bind fun _ => oneByOne_skip.bind fun _ => oneByOne_pure _
  | .newVector => exact oneByOne_skip.bind fun _ => one
  | .functionHeader =>
    have header : readFunctionHeader.OneByOne :=
      oneByOne_word.bind fun _ => list.bind fun _ => list.bind fun _ =>
        oneByOne_word.bind fun _ => list.bind fun _ => oneByOne_pure _
    exact header.bind fun _ => oneByOne_pure _
  | .coroutine =>
    exact oneByOne_word.bind fun _ => oneByOne_skip.bind fun _ =>
      list.bind fun _ => oneByOne_pure _
  | .callSite | .multiCallSite | .dispatchHeader => exact absurd (by decide) other

end Operands

/-- In a stream that has grown by too few words a truncated instruction needs fewer words by
these. -/
theorem Instruction.decode_append_of_truncated {code tail : Array Word} {offset needed : Nat}
    (truncated : decode code offset = .error (.truncated offset needed))
    (short : tail.size < needed) :
    decode (code ++ tail) offset = .error (.truncated offset (needed - tail.size)) := by
  -- No words are in front, so a call may be truncated as well.
  have between : decode (#[] ++ code ++ tail) (0 + offset) =
      .error (.truncated (0 + offset) (needed - tail.size)) :=
    decode_between_of_truncated truncated short fun _ => rfl
  rw [Array.empty_append, Nat.zero_add] at between
  exact between

/-- The number of words that a stream lacks for an instruction with a number of operand words. -/
def Instruction.missing (code : Array Word) (offset width : Nat) : Nat :=
  offset + 1 + width - code.size

/-- An instruction with a fixed number of operand words that calls nothing is decoded exactly if no
word is missing, and otherwise it says that it needs one word. -/
theorem Instruction.decode_of_fixedWidth {code : Array Word} {offset width : Nat} {opcode : Opcode}
    (found : code[offset]? = some opcode.word) (fixed : opcode.layout.fixedWidth? = some width)
    (noCall : opcode ≠ Opcode.call) :
    (missing code offset width = 0 ∧ ∃ instruction, decode code offset = .ok instruction) ∨
      0 < missing code offset width ∧ decode code offset = .error (.truncated offset 1) := by
  have inside : OperandWords.Holds ⟨code, offset⟩ 0 := (Array.getElem?_eq_some_iff.mp found).1
  have noCall : opcode.layout ≠ .callSite := fun calls =>
    noCall ((Opcode.layout_named opcode).1.mp calls)
  have other : opcode.layout ∉ [.callSite, .multiCallSite, .dispatchHeader] := by
    revert fixed noCall
    cases opcode.layout <;> decide +revert
  unfold missing
  obtain ⟨fits, operands, decoded⟩ | ⟨cut, needed, -, failed⟩ :=
    decode_of_takes found (Operands.takes_fixed inside fixed noCall)
  · exact Or.inl ⟨by omega, _, decoded⟩
  · refine Or.inr ⟨by omega, ?_⟩
    obtain ⟨outside, -⟩ | ⟨again, found', read⟩ := truncated_cases failed
    · have start : offset < code.size := (Array.getElem?_eq_some_iff.mp found).1
      omega
    · cases Opcode.word_inj.mp (Option.some.inj (found.symm.trans found'))
      rw [failed, (Operands.oneByOne_read other).lacks inside read]

namespace Machine

/-- A stream in memory is no longer than one that has grown in memory. -/
theorem Addressable.of_append {code tail : Array Word} (addressable : Addressable (code ++ tail)) :
    Addressable code := by
  unfold Addressable at *
  rw [Array.size_append] at addressable
  omega

/-- An instruction that needs a number of words stays truncated in every stream that has grown by
fewer words, and there it needs as many fewer. At an offset behind which there is a cursor, a
machine reports both faults. -/
theorem decode_needs_fewer (image : Image) (natives : Natives) {offset needed : Nat}
    {tail : Array Word}
    (truncated : Instruction.decode image.code offset = .error (.truncated offset needed))
    (short : tail.size < needed) :
    Instruction.decode (image.code ++ tail) offset =
        .error (.truncated offset (needed - tail.size)) ∧
      (offset + 1 < UInt64.size → Addressable (image.code ++ tail) →
        decode image natives offset = some (.error (.truncated offset needed)) ∧
        decode (image.withCode (image.code ++ tail)) natives offset =
          some (.error (.truncated offset (needed - tail.size)))) := by
  have grown := Instruction.decode_append_of_truncated truncated short
  refine ⟨grown, ?_⟩
  intro cursor addressable
  constructor
  · rw [decode_eq image natives cursor addressable.of_append, truncated]
    rfl
  · have machine := decode_eq (image.withCode (image.code ++ tail)) natives cursor addressable
    rw [machine]
    show some ((Instruction.decode (image.code ++ tail) offset).map _) = _
    rw [grown]
    rfl

/-- A function with four cases lacks seven words of its table, and four of them once there are three
more. -/
theorem decode_needs_fewer_cases :
    Instruction.decode #[41, 0, 4, 1, 0] 0 = .error (.truncated 0 7) ∧
      (#[-1, 37, 9] : Array Word).size < 7 ∧ 0 + 1 < UInt64.size ∧
      Addressable (#[41, 0, 4, 1, 0] ++ #[-1, 37, 9]) ∧
      decode { code := #[41, 0, 4, 1, 0, -1, 37, 9] } {} 0 = some (.error (.truncated 0 4)) := by
  have truncated : Instruction.decode #[41, 0, 4, 1, 0] 0 = .error (.truncated 0 7) := by
    decide +kernel
  have short : (#[-1, 37, 9] : Array Word).size < 7 := by decide
  have cursor : 0 + 1 < UInt64.size := by decide
  have addressable : Addressable (#[41, 0, 4, 1, 0] ++ #[-1, 37, 9]) := by
    unfold Addressable
    decide
  obtain ⟨-, machine⟩ := decode_needs_fewer { code := #[41, 0, 4, 1, 0] } {} truncated short
  exact ⟨truncated, short, cursor, addressable, (machine cursor addressable).2⟩

/-- An instruction with a fixed number of operand words that calls nothing says that it needs one
word, if words are missing. It is decoded as soon as all missing words are put behind the stream,
whatever they are, and not before. So what it says is right exactly if only its last word is
missing. A machine reports the same. -/
theorem decode_lacks_one (image : Image) (natives : Natives) {offset width : Nat} {opcode : Opcode}
    (found : image.code[offset]? = some opcode.word)
    (fixed : opcode.layout.fixedWidth? = some width) (noCall : opcode ≠ Opcode.call)
    (cut : image.code.size < offset + 1 + width) :
    Instruction.decode image.code offset = .error (.truncated offset 1) ∧
      (∀ tail : Array Word,
        (∃ instruction, Instruction.decode (image.code ++ tail) offset = .ok instruction) ↔
          Instruction.missing image.code offset width ≤ tail.size) ∧
      (Instruction.missing image.code offset width = 1 ↔ image.code.size = offset + width) ∧
      (Addressable image.code →
        decode image natives offset = some (.error (.truncated offset 1))) := by
  have inside : offset < image.code.size := (Array.getElem?_eq_some_iff.mp found).1
  have failed : Instruction.decode image.code offset = .error (.truncated offset 1) := by
    obtain ⟨complete, -⟩ | ⟨-, failed⟩ := Instruction.decode_of_fixedWidth found fixed noCall
    · unfold Instruction.missing at complete
      omega
    · exact failed
  refine ⟨failed, ?grown, ?exact, ?machine⟩
  case grown =>
    intro tail
    have still : (image.code ++ tail)[offset]? = some opcode.word :=
      (Array.getElem?_append_left inside).trans found
    have fewer : Instruction.missing (image.code ++ tail) offset width =
        Instruction.missing image.code offset width - tail.size := by
      unfold Instruction.missing
      rw [Array.size_append, Nat.sub_add_eq]
    obtain ⟨complete, decoded⟩ | ⟨lacking, failed⟩ :=
      Instruction.decode_of_fixedWidth still fixed noCall
    · exact ⟨fun _ => by omega, fun _ => decoded⟩
    · constructor
      · rintro ⟨_, decoded⟩
        rw [failed] at decoded
        cases decoded
      · omega
  case exact =>
    unfold Instruction.missing
    omega
  case machine =>
    intro addressable
    rw [decode_eq image natives (addressable.cursor_lt (Nat.le_of_lt inside)) addressable, failed]
    rfl

/-- A return without any of its two words says that it needs one, and it does not decode with one
word behind it. -/
theorem decode_lacks_one_return :
    (#[57, 42] : Array Word)[1]? = some Opcode.functionReturn.word ∧
      Opcode.functionReturn.layout.fixedWidth? = some 2 ∧ Opcode.functionReturn ≠ Opcode.call ∧
      (#[57, 42] : Array Word).size < 1 + 1 + 2 ∧
      decode { code := #[57, 42] } {} 1 = some (.error (.truncated 1 1)) ∧
      ¬ ∃ instruction, Instruction.decode #[57, 42, 0] 1 = .ok instruction := by
  have found : (#[57, 42] : Array Word)[1]? = some Opcode.functionReturn.word := by decide +kernel
  have fixed : Opcode.functionReturn.layout.fixedWidth? = some 2 := by decide +kernel
  have noCall : Opcode.functionReturn ≠ Opcode.call := by decide +kernel
  have cut : (#[57, 42] : Array Word).size < 1 + 1 + 2 := by decide
  have addressable : Addressable #[57, 42] := by
    unfold Addressable
    decide
  obtain ⟨-, grown, -, machine⟩ := decode_lacks_one { code := #[57, 42] } {} found fixed noCall cut
  exact ⟨found, fixed, noCall, cut, machine addressable, fun decoded =>
    absurd ((grown #[0]).mp decoded) (by decide)⟩

/-- What an instruction with a fixed number of operand words says that it needs is not what is
missing: a return without any of its two words says that it needs one. -/
theorem not_decode_lacks_missing :
    ¬ ∀ (image : Image) (natives : Natives) (offset width : Nat) (opcode : Opcode),
      image.code[offset]? = some opcode.word → opcode.layout.fixedWidth? = some width →
      opcode ≠ Opcode.call → image.code.size < offset + 1 + width →
      decode image natives offset =
        some (.error (.truncated offset (Instruction.missing image.code offset width))) := by
  intro claimed
  have two := claimed { code := #[42] } {} 0 2 Opcode.functionReturn (by decide +kernel)
    (by decide +kernel) (by decide +kernel) (by decide)
  have one : Instruction.decode #[42] 0 = .error (.truncated 0 1) := by decide +kernel
  have addressable : Addressable #[42] := by
    unfold Addressable
    decide
  rw [decode_eq _ _ (by decide) addressable, one] at two
  cases two

end Machine

end Disassembler
