/-!
# Operand layouts

What follows an opcode in the stream: how many words there are and what each
of them means.
-/

namespace Disassembler

/-- How the operands of an opcode are laid out. -/
inductive Layout where
  /-- No operands. -/
  | none
  /-- One integer. -/
  | int
  /-- Two words that form a 64-bit integer. -/
  | int64
  /-- Two words that form a binary64 number. -/
  | float64
  /-- One word that forms a binary32 number. -/
  | float32
  /-- Two integers. -/
  | intPair
  /-- The function that returns, then the number of values, which is not shown. -/
  | returnSite
  /-- The offset of the header of the function that is called. -/
  | callSite
  /-- The offset of the header of the function that is called, then a type for each argument. -/
  | multiCallSite
  /-- A type, which is not shown, then the number of elements. -/
  | newVector
  /-- A type that belongs to a struct. -/
  | newStruct
  /-- A native function. -/
  | native
  /-- A specialised identifier. -/
  | variable
  /-- An entry of the string table. -/
  | string
  /-- A function's signature. -/
  | functionHeader
  /-- A coroutine and the slots that it captures. -/
  | coroutine
  /-- A function with several cases, then the table of the cases, which is not shown. -/
  | dispatchHeader
  deriving DecidableEq, Repr

/-- The number of operand words, for a layout where no operand decides it. -/
def Layout.fixedWidth? : Layout → Option Nat
  | .none => some 0
  | .int | .float32 | .newStruct | .native | .variable | .string | .callSite => some 1
  | .int64 | .float64 | .intPair | .returnSite | .newVector => some 2
  | .multiCallSite | .functionHeader | .coroutine | .dispatchHeader => Option.none

end Disassembler
