import Disassembler.Word

/-!
# Decoding faults

A word that stands for no opcode, a stream that ends inside an instruction and
a call of something that is no function header each end a listing. A fault is
shown in the listing itself, as its last entry.
-/

namespace Disassembler

/-- Why there is no instruction at an offset. -/
inductive DecodeFault where
  /-- The word at the offset stands for no opcode. -/
  | illegalOpcode (word : Word)
  /-- The instruction at `offset` needs at least `needed` more words than the stream has. -/
  | truncated (offset needed : Nat)
  /-- There is no function header at the offset that a call names. -/
  | badCallTarget (target : Word)
  deriving DecidableEq

namespace DecodeFault

/-- The text of a fault in a listing. -/
def message : DecodeFault → String
  | .illegalOpcode word => "ILLEGAL INSTRUCTION: " ++ word.text
  | .truncated _ needed =>
    "TRUNCATED INSTRUCTION: needs " ++ toString needed ++ " more word(s)"
  | .badCallTarget target => "BAD CALL TARGET: " ++ target.text

/-- The short name of a fault in a record. -/
def marker : DecodeFault → String
  | .illegalOpcode _ => "ILLEGAL"
  | .truncated _ _ => "TRUNCATED"
  | .badCallTarget _ => "BADCALL"

end DecodeFault

end Disassembler
