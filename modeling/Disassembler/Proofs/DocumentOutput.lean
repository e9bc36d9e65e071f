import Disassembler.Format.Output
import Disassembler.Proofs.Json.Records
import Disassembler.Proofs.Recovery
import Mathlib.Data.List.Forall2

/-!
# Reading listings back from JSON

The document of a listing is read as a value that shows each line and the stop, whatever the texts
in them are. The records on lines are those of the same lines and of the same stop, in the same
order. So each of the two forms tells everything but where an instruction is that is truncated, and
in the listing of an image that is where the listing stops.
-/

namespace Disassembler

open Json

/-- A value shows a line: it has its parts under their names, and a file if the line has one. -/
structure Line.ShownBy (line : Line) (value : Value) : Prop where
  /-- The offset. -/
  offset : value.member? "offset" = some (.integer line.offset)
  /-- The source line. -/
  number : value.member? "line" = some (.integer line.line.toInt)
  /-- The file. -/
  file : value.member? "file" = line.file.map .string
  /-- The name of the opcode. -/
  mnemonic : value.member? "mnemonic" = some (.string line.mnemonic)
  /-- The text of the operands. -/
  operands : value.member? "operands" = some (.string line.operands)

/-- A value shows a stop: it has its parts under their names, and a file if the stop has one. -/
structure Stop.ShownBy (stop : Stop) (value : Value) : Prop where
  /-- The offset. -/
  offset : value.member? "offset" = some (.integer stop.offset)
  /-- The source line. -/
  number : value.member? "line" = some (.integer stop.line.toInt)
  /-- The file. -/
  file : value.member? "file" = stop.file.map .string
  /-- The short name of the fault. -/
  kind : value.member? "kind" = some (.string stop.fault.marker)
  /-- The text of the fault. -/
  message : value.member? "message" = some (.string stop.fault.message)

/-- A value shows a listing: it has its lines in their order, and a stop if the listing has one. It
is complete if there is none. -/
structure Listing.ShownBy (listing : Listing) (document : Value) : Prop where
  /-- Whether there is no stop. -/
  complete : document.member? "complete" = some (.bool listing.stop.isNone)
  /-- The lines. -/
  instructions : ∃ items, document.member? "instructions" = some (.array items) ∧
    List.Forall₂ Line.ShownBy listing.lines items
  /-- The stop. -/
  stop : List.Forall₂ Stop.ShownBy listing.stop.toList (document.member? "stop").toList

/-- A record is that of an entry: it names the kind of the entry, and has it under that name. -/
structure Json.Value.Records (kind : String) (entry record : Value) : Prop where
  /-- The kind. -/
  named : record.member? "type" = some (.string kind)
  /-- The entry. -/
  holds : ∃ value, record.member? kind = some value ∧ value.Alike entry

/-- Records are those of the instructions of a document and of its stop, in their order. -/
def Json.Value.RecordsAll (document : Value) (records : List Value) : Prop :=
  ∃ items first last, document.member? "instructions" = some (.array items) ∧
    records = first ++ last ∧ List.Forall₂ (Value.Records "instruction") items first ∧
    List.Forall₂ (Value.Records "stop") (document.member? "stop").toList last

/-- A value shows one line only. -/
theorem Line.ShownBy.unique {line line' : Line} {value : Value} (shown : line.ShownBy value)
    (shown' : line'.ShownBy value) : line = line' := by
  obtain ⟨offset, number, file, mnemonic, operands⟩ := line
  obtain ⟨offset', number', file', mnemonic', operands'⟩ := line'
  have offsets := shown.offset.symm.trans shown'.offset
  have numbers := shown.number.symm.trans shown'.number
  have files := shown.file.symm.trans shown'.file
  have mnemonics := shown.mnemonic.symm.trans shown'.mnemonic
  have texts := shown.operands.symm.trans shown'.operands
  simp only [Option.some.injEq, Value.integer.injEq, Value.string.injEq, Int.natCast_inj,
    Int32.toInt_inj] at offsets numbers mnemonics texts
  have files : file = file' := Option.map_injective (fun _ _ => Value.string.inj) files
  rw [offsets, numbers, files, mnemonics, texts]

/-- A value shows one stop only, but for where an instruction is that is truncated. -/
theorem Stop.ShownBy.unique {stop stop' : Stop} {value : Value} (shown : stop.ShownBy value)
    (shown' : stop'.ShownBy value) : stop.unplaced = stop'.unplaced := by
  obtain ⟨offset, number, file, fault⟩ := stop
  obtain ⟨offset', number', file', fault'⟩ := stop'
  have offsets := shown.offset.symm.trans shown'.offset
  have numbers := shown.number.symm.trans shown'.number
  have files := shown.file.symm.trans shown'.file
  have messages := shown.message.symm.trans shown'.message
  simp only [Option.some.injEq, Value.integer.injEq, Value.string.injEq, Int.natCast_inj,
    Int32.toInt_inj] at offsets numbers messages
  have files : file = file' := Option.map_injective (fun _ _ => Value.string.inj) files
  simp only [unplaced, offsets, numbers, files, DecodeFault.unplaced_of_message messages]

/-- A value shows a line with its members in alphabetic order, too. -/
theorem Line.ShownBy.sorted {line : Line} {value : Value} (shown : line.ShownBy value) :
    line.ShownBy value.sorted where
  offset := by rw [Value.member?_sorted, shown.offset]; rfl
  number := by rw [Value.member?_sorted, shown.number]; rfl
  file := by
    rw [Value.member?_sorted, shown.file]
    cases line.file <;> rfl
  mnemonic := by rw [Value.member?_sorted, shown.mnemonic]; rfl
  operands := by rw [Value.member?_sorted, shown.operands]; rfl

/-- A value shows a stop with its members in alphabetic order, too. -/
theorem Stop.ShownBy.sorted {stop : Stop} {value : Value} (shown : stop.ShownBy value) :
    stop.ShownBy value.sorted where
  offset := by rw [Value.member?_sorted, shown.offset]; rfl
  number := by rw [Value.member?_sorted, shown.number]; rfl
  file := by
    rw [Value.member?_sorted, shown.file]
    cases stop.file <;> rfl
  kind := by rw [Value.member?_sorted, shown.kind]; rfl
  message := by rw [Value.member?_sorted, shown.message]; rfl

/-- The object of a line shows it. -/
theorem Line.shownBy_toValue (line : Line) : line.ShownBy line.toValue := by
  obtain ⟨offset, number, file, mnemonic, operands⟩ := line
  cases file <;> constructor <;> rfl

/-- The object of a stop shows it. -/
theorem Stop.shownBy_toValue (stop : Stop) : stop.ShownBy stop.toValue := by
  obtain ⟨offset, number, file, fault⟩ := stop
  cases file <;> constructor <;> rfl

/-- Lists that are shown by the same values have the same entries, as far as a value tells. -/
theorem map_eq_of_forall₂ {α β γ : Type} {related : α → β → Prop} (told : α → γ)
    {entries entries' : List α} {values : List β} (shown : List.Forall₂ related entries values)
    (shown' : List.Forall₂ related entries' values)
    (unique : ∀ entry entry' value, related entry value → related entry' value →
      told entry = told entry') : entries.map told = entries'.map told := by
  induction shown generalizing entries' with
  | nil =>
    cases shown'
    rfl
  | cons first _ ih =>
    cases shown' with
    | cons first' others' =>
      rw [List.map_cons, List.map_cons, unique _ _ _ first first', ih others']

namespace Listing

variable {listing listing' : Listing}

/-- A value shows one listing only, but for where an instruction is that is truncated. -/
theorem ShownBy.unique {document : Value} (shown : listing.ShownBy document)
    (shown' : listing'.ShownBy document) : listing.unplaced = listing'.unplaced := by
  obtain ⟨items, found, each⟩ := shown.instructions
  obtain ⟨items', found', each'⟩ := shown'.instructions
  cases found.symm.trans found'
  have lines : listing.lines.map id = listing'.lines.map id :=
    map_eq_of_forall₂ id each each' fun _ _ _ => Line.ShownBy.unique
  have stops : listing.stop.toList.map Stop.unplaced = listing'.stop.toList.map Stop.unplaced :=
    map_eq_of_forall₂ Stop.unplaced shown.stop shown'.stop fun _ _ _ => Stop.ShownBy.unique
  rw [List.map_id, List.map_id] at lines
  have stops : listing.stop.map Stop.unplaced = listing'.stop.map Stop.unplaced := by
    cases stopped : listing.stop <;> cases stopped' : listing'.stop <;> simp_all
  simp only [unplaced, lines, stops]

/-- The object of a listing shows it. -/
theorem shownBy_toValue (listing : Listing) : listing.ShownBy (listing.toValue none) where
  complete := rfl
  instructions := ⟨_, rfl, List.forall₂_map_right_iff.mpr
    (List.forall₂_same.mpr fun line _ => line.shownBy_toValue)⟩
  stop := by
    obtain ⟨lines, stop⟩ := listing
    cases stop with
    | none => exact .nil
    | some stop => exact .cons stop.shownBy_toValue .nil

/-- The document of a listing is read as its object. -/
theorem parse?_json (listing : Listing) :
    Value.parse? (listing.format .json).toList = some (listing.toValue none) := by
  show Value.parse? (String.ofList listing.jsonCharacters).toList = _
  rw [String.toList_ofList]
  exact Value.parse?_printed (Or.inr rfl)

/-- The records of a listing are on lines. -/
theorem onLines_jsonLines (listing : Listing) :
    Value.OnLines (listing.format .jsonLines).toList (listing.records none) := by
  show Value.OnLines (String.ofList listing.jsonLinesCharacters).toList _
  rw [String.toList_ofList]
  exact Value.onLines_recordLines _

/-- The record of a line has its object. -/
theorem member?_lineRecord (line : Line) :
    (lineRecord none line).member? "instruction" = some line.toValue.sorted := by
  rw [lineRecord, Value.member?_sorted]
  rfl

/-- The record of a stop has its object. -/
theorem member?_stopRecord (stop : Stop) :
    (stopRecord none stop).member? "stop" = some stop.toValue.sorted := by
  rw [stopRecord, Value.member?_sorted]
  rfl

/-- The record of a line is that of its object. -/
theorem records_lineRecord (line : Line) :
    Value.Records "instruction" line.toValue (lineRecord none line) where
  named := by
    rw [lineRecord, Value.member?_sorted]
    rfl
  holds := ⟨_, member?_lineRecord line, Value.alike_sorted _⟩

/-- The record of a stop is that of its object. -/
theorem records_stopRecord (stop : Stop) :
    Value.Records "stop" stop.toValue (stopRecord none stop) where
  named := by
    rw [stopRecord, Value.member?_sorted]
    rfl
  holds := ⟨_, member?_stopRecord stop, Value.alike_sorted _⟩

/-- The records of a listing are those of its object. -/
theorem recordsAll_toValue (listing : Listing) :
    (listing.toValue none).RecordsAll (listing.records none) := by
  refine ⟨_, _, _, rfl, rfl, ?lines, ?stop⟩
  case lines =>
    refine List.forall₂_map_left_iff.mpr (List.forall₂_map_right_iff.mpr ?_)
    exact List.forall₂_same.mpr fun line _ => records_lineRecord line
  case stop =>
    obtain ⟨lines, stop⟩ := listing
    cases stop with
    | none => exact .nil
    | some stop => exact .cons (records_stopRecord stop) .nil

/-- The records of a listing tell everything but where an instruction is that is truncated. -/
theorem unplaced_of_records (same : listing.records none = listing'.records none) :
    listing.unplaced = listing'.unplaced := by
  have apart (line : Line) (stop : Stop) : stopRecord none stop ≠ lineRecord none line := by
    intro same
    have named := (records_stopRecord stop).named
    rw [same, (records_lineRecord line).named] at named
    simp at named
  obtain ⟨lines, stops⟩ := Recovery.map_append_inj (fun line _ => apart line)
    (fun line _ => apart line) same
  have told {line line' : Line} (same : lineRecord none line = lineRecord none line') :
      line = line' := by
    have entries := member?_lineRecord line
    rw [same, member?_lineRecord line'] at entries
    have shown := line.shownBy_toValue.sorted
    rw [← Option.some.inj entries] at shown
    exact shown.unique line'.shownBy_toValue.sorted
  have toldStop {stop stop' : Stop} (same : stopRecord none stop = stopRecord none stop') :
      stop.unplaced = stop'.unplaced := by
    have entries := member?_stopRecord stop
    rw [same, member?_stopRecord stop'] at entries
    have shown := stop.shownBy_toValue.sorted
    rw [← Option.some.inj entries] at shown
    exact shown.unique stop'.shownBy_toValue.sorted
  have lines : listing.lines = listing'.lines := (List.map_inj_right fun _ _ => told).mp lines
  have stops : listing.stop.map Stop.unplaced = listing'.stop.map Stop.unplaced :=
    Recovery.optionMap_eq_of_optionMap_eq (fun _ _ => toldStop) stops
  simp only [unplaced, lines, stops]

/-- Where an instruction is that is truncated is in no object. -/
theorem toValue_unplaced (image : Option String) (listing : Listing) :
    listing.unplaced.toValue image = listing.toValue image := by
  obtain ⟨lines, stop⟩ := listing
  cases stop with
  | none => rfl
  | some stop =>
    simp [toValue, unplaced, isComplete, Stop.toValue, Stop.unplaced,
      DecodeFault.marker_unplaced, DecodeFault.message_unplaced]

/-- Where an instruction is that is truncated is in no record. -/
theorem records_unplaced (image : Option String) (listing : Listing) :
    listing.unplaced.records image = listing.records image := by
  obtain ⟨lines, stop⟩ := listing
  cases stop with
  | none => rfl
  | some stop =>
    simp [records, unplaced, stopRecord, Stop.toValue, Stop.unplaced,
      DecodeFault.marker_unplaced, DecodeFault.message_unplaced]

/-- Two listings have the same document exactly if they are the same but for where an instruction is
that is truncated. -/
theorem json_eq_iff : listing.format .json = listing'.format .json ↔
    listing.unplaced = listing'.unplaced := by
  constructor
  · intro same
    have read := listing.parse?_json
    rw [same, listing'.parse?_json] at read
    have shown := listing.shownBy_toValue
    rw [← Option.some.inj read] at shown
    exact shown.unique listing'.shownBy_toValue
  · intro same
    show String.ofList ((listing.toValue none).pretty 0) =
      String.ofList ((listing'.toValue none).pretty 0)
    rw [← listing.toValue_unplaced, same, toValue_unplaced]

/-- Two listings have the same records on lines exactly if they are the same but for where an
instruction is that is truncated. -/
theorem jsonLines_eq_iff : listing.format .jsonLines = listing'.format .jsonLines ↔
    listing.unplaced = listing'.unplaced := by
  constructor
  · intro same
    have on := listing.onLines_jsonLines
    rw [same] at on
    exact unplaced_of_records (on.unique listing'.onLines_jsonLines)
  · intro same
    show String.ofList (recordLines (listing.records none)) =
      String.ofList (recordLines (listing'.records none))
    rw [← listing.records_unplaced, same, records_unplaced]

end Listing

/-- Listings are read back from JSON. The document shows the listing, and the records on lines, one
for each line and one for the stop, are those of the document. Each form tells the listing, but for
where an instruction is that is truncated. In the listing of an image that is where it stops. -/
theorem json_reads_back :
    (∀ listing : Listing, ∃ document records,
      Value.parse? (listing.format .json).toList = some document ∧ listing.ShownBy document ∧
        Value.OnLines (listing.format .jsonLines).toList records ∧
        records.length = listing.lines.length + listing.stop.toList.length ∧
        document.RecordsAll records) ∧
    (∀ listing listing' : Listing, listing.format .json = listing'.format .json ↔
      listing.unplaced = listing'.unplaced) ∧
    (∀ listing listing' : Listing, listing.format .jsonLines = listing'.format .jsonLines ↔
      listing.unplaced = listing'.unplaced) ∧
    ∀ (image : Image) (natives : Natives) (listing : Listing),
      image.sweep? natives = some listing → ∀ stop, listing.stop = some stop → stop.Placed := by
  refine ⟨fun listing => ?_, fun _ _ => Listing.json_eq_iff, fun _ _ => Listing.jsonLines_eq_iff,
    fun image natives listing swept => (Image.produced_of_sweep? swept).placed⟩
  refine ⟨_, _, listing.parse?_json, listing.shownBy_toValue, listing.onLines_jsonLines, ?_,
    listing.recordsAll_toValue⟩
  rw [Listing.records, List.length_append, List.length_map, List.length_map]

/-- An opcode without its operand is truncated where the listing stops. -/
theorem json_reads_back_truncated :
    ∃ listing stop, (Image.bare #[0] #[]).sweep? {} = some listing ∧
      listing.stop = some stop ∧ stop.fault = .truncated 0 1 ∧ stop.Placed := by
  have failed : Instruction.decode #[0] 0 = .error (.truncated 0 1) := by decide +kernel
  have swept := Image.sweep?_bare {} (by decide) failed #[]
  obtain ⟨-, -, -, placed⟩ := json_reads_back
  exact ⟨_, _, swept, rfl, rfl, placed _ _ _ swept _ rfl⟩

end Disassembler
