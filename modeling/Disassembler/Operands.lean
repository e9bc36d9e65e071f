import Disassembler.Operands.Callee
import Disassembler.Operands.Reader

/-!
# Operands

The operands of an instruction as words. Reading them needs the layout and the
stream only: names are looked up later, so no table decides where an
instruction ends.
-/

namespace Disassembler

/-- The signature that a function header holds. -/
structure FunctionHeader where
  /-- The function, or a negative word if it has no entry. -/
  function : Word
  /-- The parameters. -/
  parameters : List Word
  /-- The results. -/
  results : List Word
  /-- The number of values that the function keeps. -/
  keep : Word
  /-- The variables that the function owns. -/
  owned : List Word
  deriving DecidableEq

/-- The operands of an instruction, without those that are not shown. -/
inductive Operands where
  /-- No operands. -/
  | none
  /-- One integer. -/
  | int (value : Word)
  /-- The halves of a 64-bit integer. -/
  | int64 (low high : Word)
  /-- The halves of a binary64 number. -/
  | float64 (low high : Word)
  /-- A binary32 number. -/
  | float32 (pattern : Word)
  /-- Two integers. -/
  | intPair (first second : Word)
  /-- The function that returns. -/
  | returnSite (function : Word)
  /-- The function that is called, and the offset of its header. -/
  | callSite (callee : Callee) (target : Word)
  /-- The number of elements of a vector. -/
  | newVector (elements : Word)
  /-- The type of a struct. -/
  | newStruct (type : Word)
  /-- A native function. -/
  | native (number : Word)
  /-- A specialised identifier. -/
  | variable (index : Word)
  /-- An entry of the string table. -/
  | string (index : Word)
  /-- The signature of a function. -/
  | functionHeader (header : FunctionHeader)
  /-- A coroutine and the slots that it captures. -/
  | coroutine (number : Word) (slots : List Word)
  /-- A function with the numbers of its cases and of its arguments. -/
  | dispatchHeader (function cases arguments : Word)
  deriving DecidableEq

namespace Operands

open OperandReader

/-- Reads the target of a call and finds the callee there. -/
def readCallee : OperandReader (Callee × Word) := do
  let target ← word
  match Callee.find? (← stream) target with
  | some callee => return (callee, target)
  | .none => fail (.badCallTarget target)

/-- Reads the signature of a function. -/
def readFunctionHeader : OperandReader FunctionHeader := do
  let function ← word
  let parameters ← counted
  let results ← counted
  let keep ← word
  let owned ← counted
  return { function, parameters, results, keep, owned }

/-- Reads the operands of a layout. -/
def read : Layout → OperandReader Operands
  | .none => return .none
  | .int => return .int (← word)
  | .int64 => return .int64 (← word) (← word)
  | .float64 => return .float64 (← word) (← word)
  | .float32 => return .float32 (← word)
  | .intPair => return .intPair (← word) (← word)
  | .returnSite => do
    let function ← word
    skip 1
    return .returnSite function
  | .callSite => do
    let (callee, target) ← readCallee
    return .callSite callee target
  | .multiCallSite => do
    let (callee, target) ← readCallee
    skip callee.arguments.count
    return .callSite callee target
  | .newVector => do
    skip 1
    return .newVector (← word)
  | .newStruct => return .newStruct (← word)
  | .native => return .native (← word)
  | .variable => return .variable (← word)
  | .string => return .string (← word)
  | .functionHeader => return .functionHeader (← readFunctionHeader)
  | .coroutine => do
    let number ← word
    skip 1
    return .coroutine number (← counted)
  | .dispatchHeader => do
    let function ← word
    let cases ← word
    let arguments ← word
    skip ((arguments.count + 1) * cases.count)
    return .dispatchHeader function cases arguments

end Operands

end Disassembler
