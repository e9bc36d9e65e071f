import Disassembler.Operands.Text
import Disassembler.Proofs.Decimal.Written
import Disassembler.Proofs.Decoding
import Disassembler.Proofs.Recovery

/-!
# Numeric immediates

Three opcodes push a number that stands behind them: a 64-bit integer, a binary32 number or a
binary64 number. Nothing of the number is lost in the text of the operands. A 64-bit integer is
shown by its decimal digits, whose sign is that of the high half. A finite number is shown by the
numeral that stands for its pattern. So an immediate is told by its opcode and its text, unless its
words stand for no number.
-/

namespace Disassembler

namespace Opcode

/-- The opcode that pushes a 64-bit integer. -/
def pushInt64 : Opcode := ⟨1, by rw [size_rows]; decide⟩

/-- The opcode that pushes a binary32 number. -/
def pushFloat32 : Opcode := ⟨2, by rw [size_rows]; decide⟩

/-- The opcode that pushes a binary64 number. -/
def pushFloat64 : Opcode := ⟨3, by rw [size_rows]; decide⟩

/-- The opcodes that push numbers have layouts of their own. -/
theorem layout_push : pushInt64.layout = .int64 ∧ pushFloat32.layout = .float32 ∧
    pushFloat64.layout = .float64 := by
  decide +kernel

end Opcode

namespace Word

/-- The pattern of a word is its value modulo the number of words. -/
theorem bits_eq (word : Word) : (Word.bits word : Int) = word.toInt % (UInt32.size : Nat) := by
  show (word.toBitVec.toNat : Int) = word.toBitVec.toInt % ((2 ^ 32 : Nat) : Int)
  rw [BitVec.toInt_eq_toNat_bmod, Int.bmod_emod]
  exact (Int.emod_eq_of_lt (Int.natCast_nonneg _) (Int.ofNat_lt.mpr word.toBitVec.isLt)).symm

/-- The pattern of a word is that of no other word. -/
theorem bits_inj {word word' : Word} : Word.bits word = Word.bits word' ↔ word = word' :=
  ⟨fun same => Int32.toBitVec_inj.mp (BitVec.eq_of_toNat_eq same), congrArg _⟩

/-- The pattern of a word has 32 bits. -/
theorem bits_lt (word : Word) : Word.bits word < UInt32.size := word.toUInt32.toNat_lt

/-- The pattern of two words has 64 bits. -/
theorem pairBits_lt (low high : Word) : pairBits low high < UInt64.size := by
  have lowBits := bits_lt low
  have highBits := bits_lt high
  unfold pairBits UInt64.size
  unfold UInt32.size at *
  omega

/-- The pattern of two words is that of no other two. -/
theorem pairBits_inj {low high low' high' : Word} (same : pairBits low high = pairBits low' high') :
    low = low' ∧ high = high' := by
  have bound := bits_lt low
  have bound' := bits_lt low'
  unfold pairBits at same
  unfold UInt32.size at *
  exact ⟨bits_inj.mp (by omega), bits_inj.mp (by omega)⟩

end Word

namespace Operands

/-- The halves of a 64-bit integer give it back. -/
theorem signedPair_halves (value : Int64) :
    signedPair value.toInt32 (value >>> 32).toInt32 = value.toInt := by
  have high : (value >>> 32).toInt = value.toInt / 2 ^ 32 := by
    have shifted : (value >>> 32).toInt = value.toInt >>> (32 : Nat) := by
      rw [← Int64.toInt_toBitVec, Int64.toBitVec_shiftRight]
      simp
    rw [shifted, Int.shiftRight_eq_div_pow]
    rfl
  have pair : (Word.pairBits value.toInt32 (value >>> 32).toInt32 : Int) =
      value.toInt % (UInt64.size : Nat) := by
    unfold Word.pairBits
    rw [Int.natCast_add, Int.natCast_mul, Word.bits_eq, Word.bits_eq, Int64.toInt_toInt32,
      Int64.toInt_toInt32, high]
    unfold UInt32.size UInt64.size
    rw [Int.bmod_emod, Int.bmod_emod]
    omega
  unfold signedPair
  rw [pair, Int.emod_bmod]
  exact value.toInt_bmod_size

/-- The integer of two words is that of no other two. -/
theorem signedPair_inj {low high low' high' : Word}
    (same : signedPair low high = signedPair low' high') : low = low' ∧ high = high' := by
  have bound := Word.pairBits_lt low high
  have bound' := Word.pairBits_lt low' high'
  have patterns : (Word.pairBits low high : Int) % (UInt64.size : Nat) =
      Word.pairBits low' high' % (UInt64.size : Nat) := by
    rw [← Int.bmod_emod, ← Int.bmod_emod (x := Word.pairBits low' high')]
    exact congrArg (· % ((UInt64.size : Nat) : Int)) same
  apply Word.pairBits_inj
  unfold UInt64.size at *
  omega

end Operands

/-- A number that is pushed, with the words that hold it. -/
inductive Immediate where
  /-- A 64-bit integer. -/
  | int64 (low high : Word)
  /-- A binary32 number. -/
  | float32 (word : Word)
  /-- A binary64 number. -/
  | float64 (low high : Word)

namespace Immediate

/-- The opcode that pushes an immediate. -/
def opcode : Immediate → Opcode
  | .int64 _ _ => .pushInt64
  | .float32 _ => .pushFloat32
  | .float64 _ _ => .pushFloat64

/-- The words of an instruction that pushes an immediate. -/
def words (immediate : Immediate) : List Word :=
  immediate.opcode.word ::
    match immediate with
    | .int64 low high | .float64 low high => [low, high]
    | .float32 word => [word]

/-- The operands of an instruction that pushes an immediate. -/
def operands : Immediate → Operands
  | .int64 low high => .int64 low high
  | .float32 word => .float32 word
  | .float64 low high => .float64 low high

/-- The text of an immediate. -/
def text : Immediate → String
  | .int64 low high => toString (Operands.signedPair low high)
  | .float32 word => BinaryFormat.binary32.text word.bits
  | .float64 low high => BinaryFormat.binary64.text (Word.pairBits low high)

/-- The words of an immediate stand for no number. -/
def IsNaN : Immediate → Prop
  | .int64 _ _ => False
  | .float32 word => BinaryFormat.binary32.IsNaN word.bits
  | .float64 low high => BinaryFormat.binary64.IsNaN (Word.pairBits low high)

/-- The words of an immediate stand in a stream from an offset on. -/
def StandsAt (immediate : Immediate) (code : Array Word) (offset : Nat) : Prop :=
  ∀ index word, immediate.words[index]? = some word → code[offset + index]? = some word

/-- Wherever the words of an immediate stand, an instruction is decoded, and its operands have a
text. -/
def Shows (immediate : Immediate) (text : String) : Prop :=
  ∀ (image : Image) (natives : Natives) (offset : Nat), immediate.StandsAt image.code offset →
    ∃ instruction, Instruction.decode image.code offset = .ok instruction ∧
      instruction.operandText image.toNameTables natives = text

variable {immediate : Immediate} {code : Array Word} {offset : Nat}

/-- Where the words of an immediate stand, the instruction that pushes it is decoded. -/
theorem StandsAt.decode (stands : immediate.StandsAt code offset) :
    ∃ behind, Instruction.decode code offset =
      .ok ⟨offset, immediate.opcode, immediate.operands, behind⟩ := by
  have first {word : Word} (second : immediate.words[1]? = some word) :
      OperandReader.word ⟨code, offset⟩ 0 = .ok (word, 1) :=
    OperandReader.word_eq_ok_iff.mpr ⟨stands 1 word second, rfl⟩
  have last {word : Word} (third : immediate.words[2]? = some word) :
      OperandReader.word ⟨code, offset⟩ 1 = .ok (word, 2) :=
    OperandReader.word_eq_ok_iff.mpr ⟨stands 2 word third, rfl⟩
  refine ⟨immediate.words.length - 1, Instruction.decode_eq_ok_iff.mpr ⟨rfl, stands 0 _ rfl, ?_⟩⟩
  obtain ⟨int64, float32, float64⟩ := Opcode.layout_push
  cases immediate with
  | int64 low high =>
    show Operands.read Opcode.pushInt64.layout _ _ = _
    rw [int64]
    exact (OperandReader.bind_of_ok (first rfl)).trans (OperandReader.bind_of_ok (last rfl))
  | float32 word =>
    show Operands.read Opcode.pushFloat32.layout _ _ = _
    rw [float32]
    exact OperandReader.bind_of_ok (first rfl)
  | float64 low high =>
    show Operands.read Opcode.pushFloat64.layout _ _ = _
    rw [float64]
    exact (OperandReader.bind_of_ok (first rfl)).trans (OperandReader.bind_of_ok (last rfl))

/-- An immediate is shown with its text and with no other one. -/
theorem shows_iff {text : String} : immediate.Shows text ↔ text = immediate.text := by
  have shown (image : Image) (natives : Natives) :
      immediate.operands.text image.toNameTables natives = immediate.text := by
    cases immediate <;> rfl
  constructor
  · intro shows'
    have stands : immediate.StandsAt immediate.words.toArray 0 := by
      intro index word found
      rw [Nat.zero_add, List.getElem?_toArray, found]
    obtain ⟨instruction, decoded, rfl⟩ := shows' { code := immediate.words.toArray } {} 0 stands
    obtain ⟨behind, again⟩ := stands.decode
    cases decoded.symm.trans again
    exact shown _ _
  · rintro rfl image natives offset stands
    obtain ⟨behind, decoded⟩ := stands.decode
    exact ⟨_, decoded, shown image natives⟩

/-- An immediate is told by its opcode and its text, unless it is no number. -/
theorem text_inj {first second : Immediate} (opcodes : first.opcode = second.opcode)
    (number : ¬ first.IsNaN) (number' : ¬ second.IsNaN) (same : first.text = second.text) :
    first = second := by
  cases first with
  | int64 low high =>
    cases second with
    | int64 low' high' =>
      have values : (Operands.signedPair low high).repr = (Operands.signedPair low' high').repr :=
        same
      obtain ⟨rfl, rfl⟩ := Operands.signedPair_inj (intRepr_inj.mp values)
      rfl
    | float32 _ | float64 _ _ => cases congrArg Fin.val opcodes
  | float32 word =>
    cases second with
    | float32 word' =>
      have patterns := BinaryFormat.binary32.characters_inj (by decide) (Word.bits_lt word)
        (Word.bits_lt word') number number' (String.ofList_injective same)
      rw [Word.bits_inj.mp patterns]
    | int64 _ _ | float64 _ _ => cases congrArg Fin.val opcodes
  | float64 low high =>
    cases second with
    | float64 low' high' =>
      have patterns := BinaryFormat.binary64.characters_inj (by decide) (Word.pairBits_lt low high)
        (Word.pairBits_lt low' high') number number' (String.ofList_injective same)
      obtain ⟨rfl, rfl⟩ := Word.pairBits_inj patterns
      rfl
    | int64 _ _ | float32 _ => cases congrArg Fin.val opcodes

/-- Numbers that are pushed are shown without loss. A 64-bit integer, held by its low and its high
half, is shown in decimal. A finite number of either width, however small, is shown as a plain
numeral that rounds to its pattern and to nothing else and has the fewest digits. So two immediates
of one opcode that are shown with the same text are the same, unless one of them is no number. -/
theorem shown_without_loss :
    (∀ value : Int64,
      (int64 value.toInt32 (value >>> 32).toInt32).Shows (toString value.toInt)) ∧
    (∀ word : Word, BinaryFormat.binary32.IsFinite word.bits →
      ∃ numeral : PlainNumeral, (float32 word).Shows numeral.text ∧
        BinaryFormat.binary32.WrittenAs word.bits numeral) ∧
    (∀ low high : Word, BinaryFormat.binary64.IsFinite (Word.pairBits low high) →
      ∃ numeral : PlainNumeral, (float64 low high).Shows numeral.text ∧
        BinaryFormat.binary64.WrittenAs (Word.pairBits low high) numeral) ∧
    ∀ (first second : Immediate) (text : String), first.opcode = second.opcode →
      ¬ first.IsNaN → ¬ second.IsNaN → first.Shows text → second.Shows text → first = second := by
  refine ⟨?integer, ?narrow, ?wide, ?told⟩
  case integer =>
    intro value
    rw [shows_iff, text, Operands.signedPair_halves]
  case narrow =>
    intro word finite
    obtain ⟨numeral, shown, written⟩ :=
      BinaryFormat.binary32.exists_writtenAs (by decide) (Word.bits_lt word) finite
    exact ⟨numeral, shows_iff.mpr (congrArg String.ofList shown.symm), written⟩
  case wide =>
    intro low high finite
    obtain ⟨numeral, shown, written⟩ :=
      BinaryFormat.binary64.exists_writtenAs (by decide) (Word.pairBits_lt low high) finite
    exact ⟨numeral, shows_iff.mpr (congrArg String.ofList shown.symm), written⟩
  case told =>
    intro first second text opcodes number number' shown shown'
    exact text_inj opcodes number number'
      ((shows_iff.mp shown).symm.trans (shows_iff.mp shown'))

/-- A negative integer has its sign in the high half, one tenth has one digit at the lower width,
the smallest number of the higher width is shown without loss too, and minus zero is not shown as
zero. -/
theorem shown_without_loss_signs :
    (int64 (-5) (-1)).Shows "-5" ∧
    BinaryFormat.binary32.IsFinite (Word.bits 1036831949) ∧
    (∃ numeral : PlainNumeral, numeral.text = "0.1" ∧ (float32 1036831949).Shows numeral.text ∧
      BinaryFormat.binary32.WrittenAs (Word.bits 1036831949) numeral) ∧
    BinaryFormat.binary64.IsFinite (Word.pairBits 1 0) ∧
    (∃ numeral : PlainNumeral, (float64 1 0).Shows numeral.text ∧
      BinaryFormat.binary64.WrittenAs (Word.pairBits 1 0) numeral) ∧
    (float32 0).Shows "0" ∧ ¬ (float32 0).IsNaN ∧ ¬ (float32 Int32.minValue).IsNaN ∧
    ¬ (float32 Int32.minValue).Shows "0" := by
  obtain ⟨integer, narrow, wide, told⟩ := shown_without_loss
  have tenth : BinaryFormat.binary32.IsFinite (Word.bits 1036831949) := by
    unfold BinaryFormat.IsFinite
    decide
  have smallest : BinaryFormat.binary64.IsFinite (Word.pairBits 1 0) := by
    unfold BinaryFormat.IsFinite
    decide
  have zero : (float32 0).Shows "0" := shows_iff.mpr (by decide +kernel)
  have zeroIsNumber : ¬ (float32 0).IsNaN := by
    unfold IsNaN BinaryFormat.IsNaN
    decide
  have minusZeroIsNumber : ¬ (float32 Int32.minValue).IsNaN := by
    unfold IsNaN BinaryFormat.IsNaN
    decide
  obtain ⟨numeral, shown, written⟩ := narrow 1036831949 tenth
  have text : numeral.text = "0.1" := (shows_iff.mp shown).trans (by decide +kernel)
  refine ⟨integer (-5), tenth, ⟨numeral, text, shown, written⟩, smallest, wide 1 0 smallest, zero,
    zeroIsNumber, minusZeroIsNumber, fun shown' => ?_⟩
  cases told (float32 0) (float32 Int32.minValue) "0" rfl zeroIsNumber minusZeroIsNumber zero shown'

end Immediate

end Disassembler
