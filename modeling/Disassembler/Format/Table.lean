import Disassembler.Csv
import Disassembler.Format.Document

/-!
# Listings as tables

A listing is written as a table with a header, a record for each instruction
and one for the stop. A table of several listings has the name of the image in
front of each record.
-/

namespace Disassembler

/-- The header of a table. -/
def tableHeader : List String := ["offset", "line", "file", "mnemonic", "operands"]

/-- The fields of a listed instruction. -/
def Line.fields (line : Line) : List String :=
  [toString line.offset, line.line.text, line.file.getD "", line.mnemonic, line.operands]

/-- The fields of a stop. -/
def Stop.fields (stop : Stop) : List String :=
  [toString stop.offset, stop.line.text, stop.file.getD "", stop.fault.marker, stop.fault.message]

namespace Listing

/-- The fields of the entries of a listing, in order. -/
def tableRows (listing : Listing) : List (List String) :=
  listing.lines.map Line.fields ++ listing.stop.toList.map Stop.fields

/-- A listing as a table. -/
def csvCharacters (listing : Listing) : List Char :=
  Csv.table (tableHeader :: listing.tableRows)

end Listing

/-- Listings as one table. -/
def Batch.csvCharacters (batch : Batch) : List Char :=
  Csv.table (("image" :: tableHeader) ::
    batch.flatMap fun (image, listing) => listing.tableRows.map (image :: ·))

end Disassembler
