import Disassembler.Format
import Disassembler.Format.Table

/-!
# Output

The text of one listing, or of several with the names of their images, in each
of the formats.
-/

namespace Disassembler

/-- A listing in a format. -/
def Listing.format (listing : Listing) : Format → String
  | .text => listing.text
  | .json => String.ofList listing.jsonCharacters
  | .jsonLines => String.ofList listing.jsonLinesCharacters
  | .csv => String.ofList listing.csvCharacters

/-- A text with a line feed at its end, unless it is empty. -/
def endLine (text : String) : String :=
  if text.isEmpty || text.toList.getLast? == some '\n' then text else text ++ "\n"

/-- Listings in a form of single listings, one after the other. Each one starts on a line of its
own. -/
def Batch.joined (form : Listing → String) (batch : Batch) : String :=
  batch.foldl (fun output entry => endLine (output ++ form entry.2)) ""

/-- Listings in a format. -/
def Batch.format (batch : Batch) : Format → String
  | .text => batch.joined Listing.text
  | .json => String.ofList batch.jsonCharacters
  | .jsonLines => String.ofList batch.jsonLinesCharacters
  | .csv => String.ofList batch.csvCharacters

end Disassembler
