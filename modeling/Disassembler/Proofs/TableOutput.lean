import Disassembler.Format.Output
import Disassembler.Proofs.Csv
import Disassembler.Proofs.Recovery
import Mathlib.Data.List.Forall2

/-!
# Reading listings back from tables

The table of a listing is read as its header and the fields of its entries, whatever the texts in
them are. If it is the listing of an image, the name in the last record tells whether that is a
stop, and nothing is lost but whether a file without a name is a file.
-/

namespace Disassembler

/-- The fields of the entries of listings, in order, each with the name of the image. -/
def Batch.tableRows (batch : Batch) : List (List String) :=
  batch.flatMap fun (image, listing) => listing.tableRows.map (image :: ·)

/-- The field of a record in the column with a name. -/
def column? (record : List String) (name : String) : Option String :=
  (tableHeader.zip record).lookup name

/-- A record shows a line: it has its parts in their columns, and nothing where there is no file. -/
structure Line.TabledBy (line : Line) (record : List String) : Prop where
  /-- The offset. -/
  offset : column? record "offset" = some (toString line.offset)
  /-- The source line. -/
  number : column? record "line" = some line.line.text
  /-- The file. -/
  file : column? record "file" = some (line.file.getD "")
  /-- The name of the opcode. -/
  mnemonic : column? record "mnemonic" = some line.mnemonic
  /-- The text of the operands. -/
  operands : column? record "operands" = some line.operands

/-- A record shows a stop: it has its fault in the columns of the opcode and of the operands. -/
structure Stop.TabledBy (stop : Stop) (record : List String) : Prop where
  /-- The offset. -/
  offset : column? record "offset" = some (toString stop.offset)
  /-- The source line. -/
  number : column? record "line" = some stop.line.text
  /-- The file. -/
  file : column? record "file" = some (stop.file.getD "")
  /-- The short name of the fault. -/
  marker : column? record "mnemonic" = some stop.fault.marker
  /-- The text of the fault. -/
  message : column? record "operands" = some stop.fault.message

/-- Records show a listing: they show its lines in their order, and then its stop. -/
def Listing.TabledBy (listing : Listing) (records : List (List String)) : Prop :=
  ∃ first last, records = first ++ last ∧ List.Forall₂ Line.TabledBy listing.lines first ∧
    List.Forall₂ Stop.TabledBy listing.stop.toList last

/-- A line where no file and a file without a name are the same. -/
def Line.filled (line : Line) : Line := { line with file := some (line.file.getD "") }

/-- A stop where no file and a file without a name are the same. -/
def Stop.filled (stop : Stop) : Stop := { stop with file := some (stop.file.getD "") }

/-- A listing where no file and a file without a name are the same. -/
def Listing.filled (listing : Listing) : Listing where
  lines := listing.lines.map Line.filled
  stop := listing.stop.map Stop.filled

/-- The fields of a line show it. -/
theorem Line.tabledBy_fields (line : Line) : line.TabledBy line.fields := by constructor <;> rfl

/-- The fields of a stop show it. -/
theorem Stop.tabledBy_fields (stop : Stop) : stop.TabledBy stop.fields := by constructor <;> rfl

/-- The rows of a listing show it. -/
theorem Listing.tabledBy_tableRows (listing : Listing) : listing.TabledBy listing.tableRows :=
  ⟨_, _, rfl,
    List.forall₂_map_right_iff.mpr (List.forall₂_same.mpr fun line _ => line.tabledBy_fields),
    List.forall₂_map_right_iff.mpr (List.forall₂_same.mpr fun stop _ => stop.tabledBy_fields)⟩

/-- A record shows one line only, but for whether there is a file. -/
theorem Line.TabledBy.unique {line line' : Line} {record : List String}
    (shown : line.TabledBy record) (shown' : line'.TabledBy record) :
    line.filled = line'.filled := by
  obtain ⟨offset, number, file, mnemonic, operands⟩ := line
  obtain ⟨offset', number', file', mnemonic', operands'⟩ := line'
  have offsets := Option.some.inj (shown.offset.symm.trans shown'.offset)
  have numbers := Option.some.inj (shown.number.symm.trans shown'.number)
  have files := Option.some.inj (shown.file.symm.trans shown'.file)
  have mnemonics := Option.some.inj (shown.mnemonic.symm.trans shown'.mnemonic)
  have texts := Option.some.inj (shown.operands.symm.trans shown'.operands)
  dsimp only at offsets numbers files mnemonics texts
  simp only [filled, repr_inj.mp offsets, Word.text_inj.mp numbers, files, mnemonics, texts]

/-- A record shows one stop only, but for whether there is a file and where an instruction is that
is truncated. -/
theorem Stop.TabledBy.unique {stop stop' : Stop} {record : List String}
    (shown : stop.TabledBy record) (shown' : stop'.TabledBy record) :
    stop.filled.unplaced = stop'.filled.unplaced := by
  obtain ⟨offset, number, file, fault⟩ := stop
  obtain ⟨offset', number', file', fault'⟩ := stop'
  have offsets := Option.some.inj (shown.offset.symm.trans shown'.offset)
  have numbers := Option.some.inj (shown.number.symm.trans shown'.number)
  have files := Option.some.inj (shown.file.symm.trans shown'.file)
  have messages := Option.some.inj (shown.message.symm.trans shown'.message)
  dsimp only at offsets numbers files messages
  simp only [filled, unplaced, repr_inj.mp offsets, Word.text_inj.mp numbers, files,
    DecodeFault.unplaced_of_message messages]

/-- The fields of a stop are not those of an instruction. -/
theorem Stop.fields_ne_fields (stop : Stop) {line : Line}
    (named : ∃ opcode : Opcode, line.mnemonic = opcode.mnemonic) : stop.fields ≠ line.fields := by
  intro same
  obtain ⟨opcode, mnemonic⟩ := named
  simp only [Stop.fields, Line.fields, List.cons.injEq] at same
  exact DecodeFault.marker_ne_mnemonic stop.fault opcode (same.2.2.2.1.trans mnemonic)

namespace Listing

/-- Filling in files leaves a listing produced. -/
theorem Produced.filled {listing : Listing} (produced : listing.Produced) :
    listing.filled.Produced where
  named line among := by
    obtain ⟨original, here, rfl⟩ := List.mem_map.mp among
    exact produced.named original here
  placed stop stopped := by
    obtain ⟨original, here, rfl⟩ := Option.map_eq_some_iff.mp stopped
    exact produced.placed original here

/-- The rows of the listing of an image tell everything but whether there are files. -/
theorem Produced.filled_of_tableRows {listing listing' : Listing} (produced : listing.Produced)
    (produced' : listing'.Produced) (same : listing.tableRows = listing'.tableRows) :
    listing.filled = listing'.filled := by
  obtain ⟨lines, stops⟩ := Recovery.map_append_inj
    (fun line among stop => stop.fields_ne_fields (produced.named line among))
    (fun line among stop => stop.fields_ne_fields (produced'.named line among)) same
  refine produced.filled.eq_of_unplaced produced'.filled ?_
  have filledLines : listing.lines.map Line.filled = listing'.lines.map Line.filled :=
    Recovery.map_eq_of_map_eq
      (fun line _ line' _ (same : line.fields = line'.fields) =>
        line.tabledBy_fields.unique (same ▸ line'.tabledBy_fields)) lines
  have filledStops : (listing.stop.map Stop.filled).map Stop.unplaced =
      (listing'.stop.map Stop.filled).map Stop.unplaced := by
    rw [Option.map_map, Option.map_map]
    exact Recovery.optionMap_eq_of_optionMap_eq
      (fun stop stop' same => stop.tabledBy_fields.unique (same ▸ stop'.tabledBy_fields)) stops
  simp only [Listing.unplaced, Listing.filled, filledLines, filledStops]

/-- All records of a table have as many fields as its header. -/
theorem length_of_mem_tableRows {listing : Listing} {record : List String}
    (among : record ∈ tableHeader :: listing.tableRows) : record.length = 5 := by
  rcases List.mem_cons.mp among with rfl | among
  · rfl
  · rcases List.mem_append.mp among with among | among
    · obtain ⟨line, -, rfl⟩ := List.mem_map.mp among
      rfl
    · obtain ⟨stop, -, rfl⟩ := List.mem_map.mp among
      rfl

/-- The table of a listing is read as its header and its rows. -/
theorem read?_csv (listing : Listing) :
    Csv.read? (listing.format .csv).toList = some (tableHeader :: listing.tableRows) := by
  show Csv.read? (String.ofList listing.csvCharacters).toList = _
  rw [String.toList_ofList]
  refine Csv.read?_eq_some_iff.mpr (Csv.written_table fun record among => ?_)
  rintro rfl
  cases length_of_mem_tableRows among

end Listing

namespace Batch

/-- All records of a table of several listings have as many fields as its header. -/
theorem length_of_mem_tableRows {batch : Batch} {record : List String}
    (among : record ∈ ("image" :: tableHeader) :: batch.tableRows) : record.length = 6 := by
  rcases List.mem_cons.mp among with rfl | among
  · rfl
  · obtain ⟨⟨image, listing⟩, -, among⟩ := List.mem_flatMap.mp among
    obtain ⟨row, here, rfl⟩ := List.mem_map.mp among
    exact congrArg (· + 1) (Listing.length_of_mem_tableRows (List.mem_cons_of_mem _ here))

/-- The table of several listings is read as its header and their rows. -/
theorem read?_csv (batch : Batch) :
    Csv.read? (batch.format .csv).toList = some (("image" :: tableHeader) :: batch.tableRows) := by
  show Csv.read? (String.ofList batch.csvCharacters).toList = _
  rw [String.toList_ofList]
  refine Csv.read?_eq_some_iff.mpr (Csv.written_table fun record among => ?_)
  rintro rfl
  cases length_of_mem_tableRows among

end Batch

/-- Tables of listings are read back: there is the header, then a record that shows each instruction
and one that shows the stop, in order, and all records have the same length. Images with the same
table have the same listing, up to files without names. -/
theorem csv_reads_back :
    (∀ listing : Listing, listing.TabledBy listing.tableRows ∧
      Csv.read? (listing.format .csv).toList = some (tableHeader :: listing.tableRows) ∧
        ∀ record ∈ tableHeader :: listing.tableRows, record.length = 5) ∧
    (∀ batch : Batch,
      Csv.read? (batch.format .csv).toList = some (("image" :: tableHeader) :: batch.tableRows) ∧
        ∀ record ∈ ("image" :: tableHeader) :: batch.tableRows, record.length = 6) ∧
    ∀ (image image' : Image) (natives natives' : Natives) (listing listing' : Listing),
      image.sweep? natives = some listing → image'.sweep? natives' = some listing' →
      listing.format .csv = listing'.format .csv → listing.filled = listing'.filled := by
  refine ⟨fun listing => ⟨listing.tabledBy_tableRows, listing.read?_csv,
      fun _ => Listing.length_of_mem_tableRows⟩,
    fun batch => ⟨batch.read?_csv, fun _ => Batch.length_of_mem_tableRows⟩, ?_⟩
  intro image image' natives natives' listing listing' swept swept' same
  have read := listing.read?_csv
  rw [same, listing'.read?_csv] at read
  have rows := (List.cons.inj (Option.some.inj read)).2
  exact (Image.produced_of_sweep? swept).filled_of_tableRows (Image.produced_of_sweep? swept')
    rows.symm

/-- In no file and in a file without a name, an illegal word has the same table. -/
theorem csv_reads_back_illegal :
    ∃ listing listing', (Image.bare #[-1] #[]).sweep? {} = some listing ∧
      (Image.bare #[-1] #[""]).sweep? {} = some listing' ∧ listing ≠ listing' ∧
      listing.format .csv = listing'.format .csv ∧ listing.filled = listing'.filled := by
  have failed : Instruction.decode #[-1] 0 = .error (.illegalOpcode (-1)) := by decide +kernel
  have swept (files : Array String) := Image.sweep?_bare {} (by decide) failed files
  obtain ⟨-, -, recovered⟩ := csv_reads_back
  have rows : Listing.tableRows { stop := some ⟨0, 1, none, .illegalOpcode (-1)⟩ } =
      Listing.tableRows { stop := some ⟨0, 1, some "", .illegalOpcode (-1)⟩ } := rfl
  have same := congrArg (fun rows => String.ofList (Csv.table (tableHeader :: rows))) rows
  exact ⟨_, _, swept #[], swept #[""], by decide, same,
    recovered _ _ _ _ _ _ (swept #[]) (swept #[""]) same⟩

end Disassembler
