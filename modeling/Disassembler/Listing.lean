import Disassembler.DecodeFault

/-!
# Listings

A listing holds the instructions of an image in the order of the stream, each
with its source line and file. If a fault ended it early, it holds a stop too.
-/

namespace Disassembler

/-- An instruction as it is listed. -/
structure Line where
  /-- The offset of the instruction. -/
  offset : Nat
  /-- The source line that is active there. -/
  line : Word
  /-- The source file of that line, if the image names one. -/
  file : Option String
  /-- The name of the opcode. -/
  mnemonic : String
  /-- The text of the operands, which may be empty. -/
  operands : String
  deriving DecidableEq

/-- Where and why a listing ends before the stream does. -/
structure Stop where
  /-- The offset of the fault. -/
  offset : Nat
  /-- The source line that is active there. -/
  line : Word
  /-- The source file of that line, if the image names one. -/
  file : Option String
  /-- The fault. -/
  fault : DecodeFault
  deriving DecidableEq

/-- The instructions of an image, and the fault that ended the listing early, if one did. -/
structure Listing where
  /-- The instructions, in the order of the stream. -/
  lines : List Line := []
  /-- What ended the listing early. -/
  stop : Option Stop := none
  deriving DecidableEq

/-- The name of an opcode and, after a blank, the text of its operands, if there is any. -/
def joinOperands (mnemonic operands : String) : String :=
  if operands.isEmpty then mnemonic else mnemonic ++ " " ++ operands

/-- How the text of an offset and its source line starts. -/
def positionText (offset : Nat) (line : Word) : String :=
  "I " ++ toString offset ++ " L " ++ line.text ++ " "

/-- The text of a listed instruction. -/
def Line.text (line : Line) : String :=
  positionText line.offset line.line ++ joinOperands line.mnemonic line.operands

/-- The text of a stop. -/
def Stop.text (stop : Stop) : String :=
  positionText stop.offset stop.line ++ stop.fault.message

namespace Listing

/-- Whether a listing covers its whole stream. -/
def isComplete (listing : Listing) : Bool := listing.stop.isNone

/-- The texts of the instructions and of the stop, in order. -/
def rows (listing : Listing) : List String :=
  listing.lines.map Line.text ++ listing.stop.toList.map Stop.text

/-- The text of a listing, each row with a line feed after it. -/
def text (listing : Listing) : String := String.join (listing.rows.map (· ++ "\n"))

end Listing

end Disassembler
