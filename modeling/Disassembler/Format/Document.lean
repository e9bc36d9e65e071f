import Disassembler.Json.Printer
import Disassembler.Listing

/-!
# Listings as JSON

A listing is written as one JSON document, or as one JSON document on a line
for each of its instructions and for its stop. In the second form the members
of every object are in alphabetic order. Where several listings are written,
each document names its image.
-/

namespace Disassembler

open Json

/-- The member that names a file, if there is one. -/
def fileMember (file : Option String) : List (String × Value) :=
  file.toList.map fun name => ("file", .string name)

/-- The member that names an image, if it is to be named. -/
def imageMember (image : Option String) : List (String × Value) :=
  image.toList.map fun name => ("image", .string name)

/-- A listed instruction as a JSON object. -/
def Line.toValue (line : Line) : Value := .object <|
  [("offset", .integer line.offset), ("line", .integer line.line.toInt)] ++
    fileMember line.file ++
    [("mnemonic", .string line.mnemonic), ("operands", .string line.operands)]

/-- A stop as a JSON object. -/
def Stop.toValue (stop : Stop) : Value := .object <|
  [("offset", .integer stop.offset), ("line", .integer stop.line.toInt)] ++
    fileMember stop.file ++
    [("kind", .string stop.fault.marker), ("message", .string stop.fault.message)]

namespace Listing

/-- A listing as a JSON object, which names its image if asked to. -/
def toValue (image : Option String) (listing : Listing) : Value := .object <|
  imageMember image ++
    [("complete", .bool listing.isComplete),
      ("instructions", .array (listing.lines.map Line.toValue))] ++
    listing.stop.toList.map fun stop => ("stop", stop.toValue)

/-- The record of a listed instruction. -/
def lineRecord (image : Option String) (line : Line) : Value :=
  (Value.object (imageMember image ++
    [("instruction", line.toValue), ("type", .string "instruction")])).sorted

/-- The record of a stop. -/
def stopRecord (image : Option String) (stop : Stop) : Value :=
  (Value.object (imageMember image ++
    [("stop", stop.toValue), ("type", .string "stop")])).sorted

/-- The records of the instructions of a listing and of its stop, in order. -/
def records (image : Option String) (listing : Listing) : List Value :=
  listing.lines.map (lineRecord image) ++ listing.stop.toList.map (stopRecord image)

/-- A listing as one JSON document. -/
def jsonCharacters (listing : Listing) : List Char := (listing.toValue none).pretty 0

/-- Records, each on a line. -/
def recordLines (records : List Value) : List Char :=
  records.flatMap fun record => record.compact ++ ['\n']

/-- A listing as one JSON document on a line for each entry. -/
def jsonLinesCharacters (listing : Listing) : List Char := recordLines (listing.records none)

end Listing

/-- Listings with the names of their images. -/
abbrev Batch := List (String × Listing)

namespace Batch

/-- Listings as one JSON document. -/
def jsonCharacters (batch : Batch) : List Char :=
  (Value.array (batch.map fun (image, listing) => listing.toValue (some image))).pretty 0 ++ ['\n']

/-- Listings as one JSON document on a line for each entry. -/
def jsonLinesCharacters (batch : Batch) : List Char :=
  Listing.recordLines (batch.flatMap fun (image, listing) => listing.records (some image))

end Batch

end Disassembler
