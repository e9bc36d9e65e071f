import Disassembler.Opcode.Layout

/-!
# The opcode table

Opcodes are numbered densely from zero: the base opcodes, then the operations
on places that hold a value, once for variables, once for struct fields and
once for local slots. The number of an opcode is its place in `Opcode.rows`.
-/

namespace Disassembler

/-- The four groups of opcodes. -/
inductive Opcode.Family where
  /-- Opcodes that do not work on a place. -/
  | base
  /-- Operations on a variable. -/
  | variable
  /-- Operations on a struct field. -/
  | field
  /-- Operations on a local slot. -/
  | slot
  deriving DecidableEq

namespace Opcode

/-- What is fixed for each opcode: its group, its name in a listing and its operands. -/
structure Row where
  /-- The group of the opcode. -/
  family : Family
  /-- The name of the opcode in a listing. -/
  mnemonic : String
  /-- The operands that follow the opcode. -/
  layout : Layout

/-- The rows of the base opcodes. -/
def baseRows : Array Row := #[
  ⟨.base, "PUSHINT", .int⟩, ⟨.base, "PUSHINT64", .int64⟩, ⟨.base, "PUSHFLT", .float32⟩,
  ⟨.base, "PUSHFLT64", .float64⟩, ⟨.base, "PUSHSTR", .string⟩, ⟨.base, "PUSHNIL", .none⟩,
  ⟨.base, "PUSHVAR", .variable⟩, ⟨.base, "PUSHFLD", .int⟩, ⟨.base, "PUSHFLDMREF", .int⟩,
  ⟨.base, "PUSHLOC", .int⟩, ⟨.base, "PUSHFUN", .int⟩, ⟨.base, "VPUSHIDXI", .none⟩,
  ⟨.base, "VPUSHIDXV", .none⟩, ⟨.base, "NPUSHIDXI", .none⟩, ⟨.base, "SPUSHIDXI", .none⟩,
  ⟨.base, "BCALLRET0", .native⟩, ⟨.base, "BCALLRET1", .native⟩, ⟨.base, "BCALLRET2", .native⟩,
  ⟨.base, "BCALLRET3", .native⟩, ⟨.base, "BCALLRET4", .native⟩, ⟨.base, "BCALLRET5", .native⟩,
  ⟨.base, "BCALLRET6", .native⟩, ⟨.base, "BCALLREF0", .native⟩, ⟨.base, "BCALLREF1", .native⟩,
  ⟨.base, "BCALLREF2", .native⟩, ⟨.base, "BCALLREF3", .native⟩, ⟨.base, "BCALLREF4", .native⟩,
  ⟨.base, "BCALLREF5", .native⟩, ⟨.base, "BCALLREF6", .native⟩, ⟨.base, "BCALLUNB0", .native⟩,
  ⟨.base, "BCALLUNB1", .native⟩, ⟨.base, "BCALLUNB2", .native⟩, ⟨.base, "BCALLUNB3", .native⟩,
  ⟨.base, "BCALLUNB4", .native⟩, ⟨.base, "BCALLUNB5", .native⟩, ⟨.base, "BCALLUNB6", .native⟩,
  ⟨.base, "CALL", .callSite⟩, ⟨.base, "CALLMULTI", .multiCallSite⟩, ⟨.base, "CALLV", .none⟩,
  ⟨.base, "CALLVCOND", .none⟩, ⟨.base, "FUNSTART", .functionHeader⟩,
  ⟨.base, "FUNMULTI", .dispatchHeader⟩, ⟨.base, "RETURN", .returnSite⟩,
  ⟨.base, "ENDSTATEMENT", .none⟩, ⟨.base, "EXIT", .int⟩, ⟨.base, "ABORT", .none⟩,
  ⟨.base, "CORO", .coroutine⟩, ⟨.base, "COCL", .none⟩, ⟨.base, "COEND", .none⟩,
  ⟨.base, "CONT1", .int⟩, ⟨.base, "LOGREAD", .int⟩, ⟨.base, "LOGWRITE", .intPair⟩,
  ⟨.base, "ISTYPE", .int⟩, ⟨.base, "INCREF", .int⟩, ⟨.base, "KEEPREF", .intPair⟩,
  ⟨.base, "NEWVEC", .newVector⟩, ⟨.base, "NEWSTRUCT", .newStruct⟩, ⟨.base, "POP", .none⟩,
  ⟨.base, "POPREF", .none⟩, ⟨.base, "DUP", .none⟩, ⟨.base, "JUMP", .int⟩,
  ⟨.base, "JUMPFAIL", .int⟩, ⟨.base, "JUMPFAILR", .int⟩, ⟨.base, "JUMPFAILN", .int⟩,
  ⟨.base, "JUMPNOFAIL", .int⟩, ⟨.base, "JUMPNOFAILR", .int⟩, ⟨.base, "IFOR", .int⟩,
  ⟨.base, "VFOR", .int⟩, ⟨.base, "SFOR", .int⟩, ⟨.base, "NFOR", .int⟩, ⟨.base, "IADD", .none⟩,
  ⟨.base, "ISUB", .none⟩, ⟨.base, "IMUL", .none⟩, ⟨.base, "IDIV", .none⟩,
  ⟨.base, "IMOD", .none⟩, ⟨.base, "ILT", .none⟩, ⟨.base, "IGT", .none⟩, ⟨.base, "ILE", .none⟩,
  ⟨.base, "IGE", .none⟩, ⟨.base, "IEQ", .none⟩, ⟨.base, "INE", .none⟩,
  ⟨.base, "IUMINUS", .none⟩, ⟨.base, "FADD", .none⟩, ⟨.base, "FSUB", .none⟩,
  ⟨.base, "FMUL", .none⟩, ⟨.base, "FDIV", .none⟩, ⟨.base, "FMOD", .none⟩, ⟨.base, "FLT", .none⟩,
  ⟨.base, "FGT", .none⟩, ⟨.base, "FLE", .none⟩, ⟨.base, "FGE", .none⟩, ⟨.base, "FEQ", .none⟩,
  ⟨.base, "FNE", .none⟩, ⟨.base, "FUMINUS", .none⟩, ⟨.base, "SADD", .none⟩,
  ⟨.base, "SLT", .none⟩, ⟨.base, "SGT", .none⟩, ⟨.base, "SLE", .none⟩, ⟨.base, "SGE", .none⟩,
  ⟨.base, "SEQ", .none⟩, ⟨.base, "SNE", .none⟩, ⟨.base, "AEQ", .none⟩, ⟨.base, "ANE", .none⟩,
  ⟨.base, "LOGNOT", .none⟩, ⟨.base, "LOGNOTREF", .none⟩, ⟨.base, "BINAND", .none⟩,
  ⟨.base, "BINOR", .none⟩, ⟨.base, "XOR", .none⟩, ⟨.base, "ASL", .none⟩, ⟨.base, "ASR", .none⟩,
  ⟨.base, "NEG", .none⟩, ⟨.base, "I2F", .none⟩, ⟨.base, "A2S", .none⟩, ⟨.base, "E2B", .none⟩,
  ⟨.base, "E2BREF", .none⟩, ⟨.base, "ST2S", .none⟩]

/-- The names of the operations on a place. -/
def placeOperations : Array String := #[
  "WRITE", "WRITER", "WRITEREF", "WRITERREF", "WRITEV", "WRITERV", "IADD", "IADDR", "ISUB",
  "ISUBR", "IMUL", "IMULR", "IDIV", "IDIVR", "IMOD", "IMODR", "FADD", "FADDR", "FSUB", "FSUBR",
  "FMUL", "FMULR", "FDIV", "FDIVR", "SADD", "SADDR", "IPP", "IPPR", "IMM", "IMMR", "IPPP",
  "IPPPR", "IMMP", "IMMPR"]

/-- The rows of the operations on one kind of place. -/
def placeRows (family : Family) (start : String) (layout : Layout) : Array Row :=
  placeOperations.map fun name => ⟨family, start ++ name, layout⟩

/-- The rows of all opcodes, in the order of their numbers. -/
def rows : Array Row :=
  baseRows ++ placeRows .variable "VAR_" .variable ++ placeRows .field "FLD_" .int ++
    placeRows .slot "LOC_" .int

/-- The table holds 116 base opcodes and 34 operations on each of three kinds of place. -/
theorem size_rows : rows.size = 218 := by
  simp only [rows, placeRows, Array.size_append, Array.size_map]
  rfl

end Opcode

end Disassembler
