import Disassembler.Sweep

/-!
# Decoding in one pass on a 64-bit machine

A machine decodes an instruction in one pass: it moves a cursor over the stream and writes the text
of the operands, with the names that the tables give, while it reads them. A cursor is a 64-bit
number. Each operation on cursors gives its exact result or nothing: there is nothing wherever a
machine would stop, wrap around, or saturate.
-/

namespace Disassembler

/-- An instruction with the text of its operands. -/
structure RenderedInstruction where
  /-- The offset of the opcode. -/
  offset : Nat
  /-- The opcode. -/
  opcode : Opcode
  /-- The text of the operands. -/
  operands : String
  /-- The offset right after the instruction. -/
  next : Nat
  deriving DecidableEq

/-- A decoded instruction with its operands as text. -/
def Instruction.rendered (tables : NameTables) (natives : Natives) (instruction : Instruction) :
    RenderedInstruction where
  offset := instruction.offset
  opcode := instruction.opcode
  operands := instruction.operandText tables natives
  next := instruction.next

namespace Machine

/-- A 64-bit number, if the exact result of an operation is one. -/
def fit? (value : Int) : Option Nat :=
  if 0 ≤ value ∧ value < UInt64.size then some value.toNat else none

/-- The sum of two 64-bit numbers. -/
def add? (first second : Nat) : Option Nat := fit? (first + second)

/-- The difference of two 64-bit numbers. -/
def sub? (first second : Nat) : Option Nat := fit? (first - second)

/-- The product of two 64-bit numbers. -/
def mul? (first second : Nat) : Option Nat := fit? (first * second)

/-- A reader that moves a cursor over the stream of an instruction. It gives nothing if an operation
on cursors has no exact result. -/
def CursorReader (α : Type) : Type :=
  OperandWords → Nat → Option (Except DecodeFault (α × Nat))

namespace CursorReader

variable {α β : Type}

/-- Reads nothing. -/
def pure (value : α) : CursorReader α := fun _ cursor => some (.ok (value, cursor))

/-- Reads one thing, then another that may depend on it. -/
def bind (reader : CursorReader α) (next : α → CursorReader β) : CursorReader β :=
  fun words cursor =>
    match reader words cursor with
    | some (.ok (value, cursor)) => next value words cursor
    | some (.error fault) => some (.error fault)
    | none => none

instance : Monad CursorReader where
  pure := pure
  bind := bind

theorem bind_apply (reader : CursorReader α) (next : α → CursorReader β) (words : OperandWords)
    (cursor : Nat) :
    (reader >>= next) words cursor =
      match reader words cursor with
      | some (.ok (value, cursor)) => next value words cursor
      | some (.error fault) => some (.error fault)
      | none => none := rfl

/-- The result of an operation on cursors. -/
def result (value? : Option α) : CursorReader α := fun _ cursor =>
  value?.map fun value => .ok (value, cursor)

/-- Fails with a fault. -/
def fail (fault : DecodeFault) : CursorReader α := fun _ _ => some (.error fault)

/-- Looks at the whole stream. -/
def stream : CursorReader (Array Word) := fun words cursor => some (.ok (words.code, cursor))

/-- Fails because the stream should reach up to a place. -/
def truncatedBefore (stop : Nat) : CursorReader α := fun words _ =>
  (sub? stop words.code.size).map fun needed => .error (.truncated words.offset needed)

/-- Reads one word. -/
def word : CursorReader Word := fun words cursor =>
  (add? cursor 1).bind fun after =>
    match words.code[cursor]? with
    | some word => some (.ok (word, after))
    | none => truncatedBefore after words cursor

/-- Passes over a block of words. -/
def skip (size : Nat) : CursorReader Unit := fun words cursor =>
  (add? cursor size).bind fun after =>
    if words.code.size < after then truncatedBefore after words cursor
    else some (.ok ((), after))

/-- Reads words one by one and adds the text of each to the text so far. -/
def texts (text : Word → String) : Nat → String → CursorReader String
  | 0, sofar => return sofar
  | count + 1, sofar => do
    let value ← word
    texts text count (sofar ++ text value)

/-- Reads the callee of a call and its target. -/
def callee : CursorReader (Callee × Word) := do
  let target ← word
  match Callee.find? (← stream) target with
  | some callee => return (callee, target)
  | none => fail (.badCallTarget target)

/-- The text of the callee of a call. -/
def calleeText (tables : NameTables) (callee : Callee) (target : Word) : String :=
  callee.arguments.text ++ " " ++ tables.showFunction callee.function ++ " " ++ target.text

/-- Reads a function header as text. -/
def header (tables : NameTables) : CursorReader String := do
  let name (index : Word) : String := tables.showVariable index ++ " "
  let function ← word
  let start := if function.toInt < 0 then "__dummy" else tables.showFunction function
  let parameters ← word
  let sofar ← texts name parameters.count (start ++ "(")
  let results ← word
  let sofar ← texts name results.count (sofar ++ "=> ")
  let keep ← word
  let owned ← word
  let sofar ← texts name owned.count (sofar ++ "[" ++ keep.text ++ "]")
  return sofar ++ ")"

/-- Reads the operands of a layout as text. -/
def operands (tables : NameTables) (natives : Natives) : Layout → CursorReader String
  | .none => return ""
  | .int => return (← word).text
  | .int64 => return toString (Operands.signedPair (← word) (← word))
  | .float64 => return BinaryFormat.binary64.text (Word.pairBits (← word) (← word))
  | .float32 => return BinaryFormat.binary32.text (← word).bits
  | .intPair => return (← word).text ++ " " ++ (← word).text
  | .returnSite => do
    let function ← word
    skip 1
    return tables.showFunction function
  | .callSite => do
    let (callee, target) ← callee
    return calleeText tables callee target
  | .multiCallSite => do
    let (callee, target) ← callee
    skip callee.arguments.count
    return calleeText tables callee target
  | .newVector => do
    skip 1
    return "vector " ++ (← word).text
  | .newStruct => return tables.showStructOfType (← word)
  | .native => do
    let number ← word
    return nameOr (natives.name? number) number
  | .variable => return tables.showVariable (← word)
  | .string => return tables.showString (← word)
  | .functionHeader => header tables
  | .coroutine => do
    let number ← word
    skip 1
    let slots ← word
    texts (fun slot => " v" ++ slot.text) slots.count number.text
  | .dispatchHeader => do
    let function ← word
    let cases ← word
    let arguments ← word
    let columns ← result (add? arguments.count 1)
    skip (← result (mul? columns cases.count))
    return tables.showFunction function ++ " (multi_start) " ++ cases.text ++ " " ++
      arguments.text

end CursorReader

/-- The opcode of an operation on a place, by the kind of place and the operation. -/
def placeOpcode? (kind operation : Nat) : Option Opcode :=
  let number := Opcode.baseRows.size + kind * Opcode.placeOperations.size + operation
  if bounds : kind < 3 ∧ number < Opcode.rows.size then some ⟨number, bounds.2⟩ else none

/-- The opcode of a word, found in the block of the opcode table that the word reaches. -/
def opcode? (word : Word) : Option (Option Opcode) :=
  if word.toInt < 0 then some none
  else if bound : word.toInt.toNat < Opcode.baseRows.size then
    some (some ⟨word.toInt.toNat, by rw [Opcode.size_rows]; exact Nat.lt_trans bound (by decide)⟩)
  else
    (sub? word.toInt.toNat Opcode.baseRows.size).map fun rest =>
      placeOpcode? (rest / Opcode.placeOperations.size) (rest % Opcode.placeOperations.size)

/-- Reads an opcode and its operands as text. -/
def instruction (tables : NameTables) (natives : Natives) : CursorReader (Opcode × String) := do
  let first ← CursorReader.word
  match ← CursorReader.result (opcode? first) with
  | some opcode => return (opcode, ← CursorReader.operands tables natives opcode.layout)
  | none => CursorReader.fail (.illegalOpcode first)

/-- Decodes the instruction at an offset. -/
def decode (image : Image) (natives : Natives) (offset : Nat) :
    Option (Except DecodeFault RenderedInstruction) :=
  (instruction image.toNameTables natives ⟨image.code, offset⟩ offset).map fun outcome =>
    outcome.map fun ((opcode, operands), next) => { offset, opcode, operands, next }

end Machine

end Disassembler
