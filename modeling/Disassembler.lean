import Disassembler.Opcode
import Disassembler.Image.Validity
import Disassembler.LineTable
import Disassembler.Text.Quoted
import Disassembler.Text.Visible
import Disassembler.Decimal.Shortest
import Disassembler.Instruction
import Disassembler.Operands.Text
import Disassembler.Sweep
import Disassembler.Format.Output
import Disassembler.Json.Reading
import Disassembler.Load.Image
import Disassembler.Image.Document
import Disassembler.Main
import Disassembler.Proofs.Outcomes
import Disassembler.Proofs.Tiling
import Disassembler.Proofs.Containment
import Disassembler.Proofs.NameIndependence
import Disassembler.Proofs.Attribution
import Disassembler.Proofs.CallSite
import Disassembler.Proofs.RoundTrip
import Disassembler.Proofs.SelfDelimiting
import Disassembler.Proofs.LayoutIndependence
import Disassembler.Proofs.TableOutput
import Disassembler.Proofs.DocumentOutput
import Disassembler.Proofs.BatchOutput
import Disassembler.Proofs.TextOutput
import Disassembler.Proofs.NamesInRows
import Disassembler.Proofs.CommandLine.Files
import Disassembler.Proofs.CommandLine.Arguments
import Disassembler.Proofs.CommandLine.Run
import Disassembler.Proofs.Concatenation
import Disassembler.Proofs.Shortfall
import Disassembler.Proofs.Signatures
import Disassembler.Proofs.Quotation
import Disassembler.Proofs.Immediates
import Disassembler.Proofs.WordPlaces
import Disassembler.Proofs.PositionalForm
