import Disassembler.DecodeFault

/-!
# Reading operand words

The operands of an instruction are read from left to right. A reader knows how
many operand words came before, and gives a value and the number of words that
came before the next one. It never passes the end of the stream: a read that
would is a fault that says how many words are missing for that read.
-/

namespace Disassembler

/-- The words after an opcode. -/
structure OperandWords where
  /-- The whole instruction stream. -/
  code : Array Word
  /-- The offset of the opcode. -/
  offset : Nat

namespace OperandWords

/-- The place in the stream of the word after `read` operand words. -/
def place (words : OperandWords) (read : Nat) : Nat := words.offset + 1 + read

/-- The fault of a read that needs the stream to reach up to a place. -/
def truncatedBefore (words : OperandWords) (stop : Nat) : DecodeFault :=
  .truncated words.offset (stop - words.code.size)

end OperandWords

/-- A reader of operand words: it takes the number of operand words already read. -/
def OperandReader (α : Type) : Type := OperandWords → Nat → Except DecodeFault (α × Nat)

namespace OperandReader

variable {α β : Type}

/-- Reads nothing. -/
def pure (value : α) : OperandReader α := fun _ read => .ok (value, read)

/-- Reads one thing, then another that may depend on it. -/
def bind (reader : OperandReader α) (next : α → OperandReader β) : OperandReader β :=
  fun words read =>
    match reader words read with
    | .ok (value, read) => next value words read
    | .error fault => .error fault

instance : Monad OperandReader where
  pure := pure
  bind := bind

/-- Reads one word. -/
def word : OperandReader Word := fun words read =>
  match words.code[words.place read]? with
  | some word => .ok (word, read + 1)
  | none => .error (words.truncatedBefore (words.place read + 1))

/-- Passes over a block of words, all of which have to be there. -/
def skip (size : Nat) : OperandReader Unit := fun words read =>
  if words.place (read + size) ≤ words.code.size then .ok ((), read + size)
  else .error (words.truncatedBefore (words.place (read + size)))

/-- Reads a list of words. They are read one by one, so a list that does not fit lacks the first
word after the stream. -/
def list (length : Nat) : OperandReader (List Word) := fun words read =>
  if words.place (read + length) ≤ words.code.size then
    .ok ((words.code.extract (words.place read) (words.place (read + length))).toList,
      read + length)
  else .error (words.truncatedBefore (words.code.size + 1))

/-- Reads a list of words after a word that counts them. -/
def counted : OperandReader (List Word) := do
  let length ← word
  list length.count

/-- Fails with a fault of its own. -/
def fail (fault : DecodeFault) : OperandReader α := fun _ _ => .error fault

/-- Looks at the whole stream without reading from it. -/
def stream : OperandReader (Array Word) := fun words read => .ok (words.code, read)

@[simp] theorem pure_apply (value : α) (words : OperandWords) (read : Nat) :
    (Pure.pure value : OperandReader α) words read = .ok (value, read) := rfl

@[simp] theorem bind_apply (reader : OperandReader α) (next : α → OperandReader β)
    (words : OperandWords) (read : Nat) :
    (reader >>= next) words read =
      match reader words read with
      | .ok (value, read) => next value words read
      | .error fault => .error fault := rfl

@[simp] theorem stream_apply (words : OperandWords) (read : Nat) :
    stream words read = .ok (words.code, read) := rfl

end OperandReader

end Disassembler
