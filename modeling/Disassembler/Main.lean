import Disassembler.CommandLine.Run

/-!
# The program

A run of the program is `CommandLine.runIn` with the operations on files that
the system has. Only its outcome is left to be shown.
-/

namespace Disassembler.Main

open CommandLine

/-- The number that the system gives to an error. Some file operations report it negated. -/
def systemNumber (code : UInt32) : UInt32 := min code (-code)

/-- The fault of a file operation that failed. -/
def faultOf (error : IO.Error) : FileFault :=
  match error with
  | .noFileOrDirectory _ _ _ => .missing
  | .inappropriateType _ code _ =>
    match systemNumber code with
    | 20 => .notDirectory
    | 21 => .isDirectory
    | _ => .other (toString error)
  | .invalidArgument _ code _ =>
    match systemNumber code with
    | 36 => .nameTooLong
    | _ => .other (toString error)
  | _ => .other (toString error)

/-- What a file operation results in, or the fault with which it fails. -/
def attempt {α : Type} (operation : IO α) : IO (Except FileFault α) := do
  try
    return .ok (← operation)
  catch error => return .error (faultOf error)

/-- The operations on the files of the system. -/
def system : FileSystem IO where
  read path := attempt do
    return (← IO.FS.readBinFile path).toList
  write path bytes := attempt (IO.FS.writeBinFile path ⟨bytes.toArray⟩)

end Disassembler.Main

/-- Runs the command line. -/
def main (texts : List String) : IO UInt32 := do
  let outcome ← Disassembler.CommandLine.runIn Disassembler.Main.system texts
  IO.print outcome.output
  IO.eprint outcome.errors
  return outcome.code.toUInt32
