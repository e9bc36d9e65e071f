import Disassembler.Proofs.DocumentOutput
import Disassembler.Proofs.Json.Joining
import Disassembler.Proofs.TableOutput

/-!
# Listings of several images

In each format the output of several listings is made of the outputs of the single ones, in their
order. A text is put behind the texts before it, and as each of them ends its last line, no line
feed comes between them. In the other formats each record, row or document has the name of its own
image besides, and nothing else about it is different.
-/

namespace Disassembler

open Json

/-- A text ends its last line: it is empty, or its last character is a line feed. -/
def Ended (text : String) : Prop := text = "" ∨ text.toList.getLast? = some '\n'

/-- No line feed is added to a text that ends its last line. -/
theorem endLine_of_ended {text : String} (ended : Ended text) : endLine text = text := by
  unfold endLine
  rcases ended with rfl | last
  · rfl
  · simp [last]

/-- Two texts that end their last lines do so one behind the other. -/
theorem Ended.append {first second : String} (before : Ended first) (behind : Ended second) :
    Ended (first ++ second) := by
  rcases behind with rfl | last
  · rw [String.append_empty]
    exact before
  · right
    rw [String.toList_append, List.getLast?_append, last]
    rfl

/-- Texts that end their last lines do so all together. -/
theorem ended_join {texts : List String} (each : ∀ text ∈ texts, Ended text) :
    Ended (String.join texts) := by
  induction texts with
  | nil => exact Or.inl rfl
  | cons text rest ih =>
    have first : Ended text := each text List.mem_cons_self
    have others : ∀ text ∈ rest, Ended text := fun text among => each text (.tail _ among)
    rw [String.join_cons]
    exact first.append (ih others)

/-- The text of a listing ends its last line. -/
theorem Listing.ended_text (listing : Listing) : Ended listing.text := by
  refine ended_join fun text among => ?_
  obtain ⟨row, -, rfl⟩ := List.mem_map.mp among
  right
  simp

namespace Batch

/-- Behind a text that ends its last line, listings are put one behind the other as they are, if
each one ends its last line. -/
theorem foldl_endLine {form : Listing → String} (ended : ∀ listing, Ended (form listing))
    (batch : Batch) {start : String} (started : Ended start) :
    batch.foldl (fun output entry => endLine (output ++ form entry.2)) start =
      start ++ String.join (batch.map fun entry => form entry.2) := by
  induction batch generalizing start with
  | nil => exact (String.append_empty (s := start)).symm
  | cons entry rest ih =>
    have next : Ended (start ++ form entry.2) := started.append (ended entry.2)
    rw [List.foldl_cons, endLine_of_ended next, ih next, List.map_cons, String.join_cons,
      String.append_assoc]

/-- The text of several listings is that of each one, one behind the other. -/
theorem format_text (batch : Batch) :
    batch.format .text = String.join (batch.map fun entry => entry.2.format .text) := by
  have joined := foldl_endLine Listing.ended_text batch (Or.inl rfl : Ended "")
  rw [String.empty_append] at joined
  exact joined

/-- The text of several listings ends its last line. -/
theorem ended_text (batch : Batch) : Ended (batch.format .text) := by
  rw [format_text]
  refine ended_join fun text among => ?_
  obtain ⟨entry, -, rfl⟩ := List.mem_map.mp among
  exact entry.2.ended_text

/-- The parts of several listings are those that are read from each one, in order, where a name is
given to each part: that of the image which the part is of. -/
inductive Gathers {α β : Type} (reads : Listing → List α → Prop) (names : String → α → β → Prop) :
    Batch → List β → Prop where
  /-- Without listings there are no parts. -/
  | nil : Gathers reads names [] []
  /-- The parts of the first listing come first, all with the name of its image. -/
  | cons {image : String} {listing : Listing} {parts : List α} {named rest : List β}
      {batch : Batch} : reads listing parts → List.Forall₂ (names image) parts named →
      Gathers reads names batch rest →
      Gathers reads names ((image, listing) :: batch) (named ++ rest)

/-- What is made of each listing and the name of its image is gathered. -/
theorem gathers_flatMap {α β : Type} {reads : Listing → List α → Prop}
    {names : String → α → β → Prop} (parts : Listing → List α)
    (named : String → Listing → List β) (read : ∀ listing, reads listing (parts listing))
    (same : ∀ image listing, List.Forall₂ (names image) (parts listing) (named image listing))
    (batch : Batch) :
    batch.Gathers reads names (batch.flatMap fun entry => named entry.1 entry.2) := by
  induction batch with
  | nil => exact .nil
  | cons entry rest ih =>
    rw [List.flatMap_cons]
    exact .cons (read entry.2) (same entry.1 entry.2) ih

end Batch

/-- A document with a line feed behind it is read as the same value. -/
theorem Json.Value.parse?_ended {value : Value} {text : List Char} (printed : value.Printed text) :
    parse? (text ++ ['\n']) = some value := by
  have document : value.reading.Document (octets text) :=
    Reading.document_iff.mpr ⟨Reading.ofBytes_printed printed, value.intact_reading⟩
  have newLine : octets ['\n'] = [0x0a] := rfl
  have blank : ∀ byte ∈ octets ['\n'], byte ∈ Token.blanks := by
    rw [newLine, List.forall_mem_singleton]
    decide
  have padded : value.reading.Document ([] ++ octets text ++ octets ['\n']) :=
    document.padded (List.forall_mem_nil _) blank
  rw [List.nil_append, ← octets_append] at padded
  rw [parse?, (Reading.document_iff.mp padded).1]
  exact value.ofReading?_reading

/-- An object with the name of its image: a member more than the object has, which had none with
this key. -/
inductive Json.Value.NamedAs (image : String) : Value → Value → Prop where
  /-- The name is in front of the other members. -/
  | front {members : List (String × Value)} : members.lookup "image" = none →
      NamedAs image (.object members) (.object (("image", .string image) :: members))

/-- The line of an object with the name of its image behind the opening brace. -/
inductive Json.NamedLine (image : String) : List Char → List Char → Prop where
  /-- All the rest of the line is the same. -/
  | front (members : List Char) : NamedLine image ('{' :: members)
      ('{' :: (Quoted.encode "image".toList ++ ':' :: Quoted.encode image.toList ++
        ',' :: members))

/-- Naming the image of an object that has members names it in its line. -/
theorem Json.Value.NamedAs.line {image : String} {record named : Value}
    (namedAs : NamedAs image record named) {key : String} {value : Value}
    (member : record.member? key = some value) :
    NamedLine image record.compact named.compact := by
  cases namedAs with
  | @front members _ =>
    cases members with
    | nil => cases member
    | cons first rest =>
      have split : compactMembers (("image", .string image) :: first :: rest) =
          Quoted.encode "image".toList ++ ':' :: Quoted.encode image.toList ++
            ',' :: compactMembers (first :: rest) := rfl
      rw [compact, compact, split, List.append_assoc]
      exact .front _

namespace Listing

/-- The document of a listing with the name of its image differs in nothing else. -/
theorem namedAs_toValue (image : String) (listing : Listing) :
    Value.NamedAs image (listing.toValue none) (listing.toValue (some image)) := by
  refine .front ?_
  cases listing.stop <;> rfl

/-- A record with the name of its image differs in nothing else, where the key of its entry is
between the others. -/
theorem namedAs_sorted (image kind : String) (entry : Value)
    (ordered : ["image", kind, "type"].Pairwise (· < ·)) :
    Value.NamedAs image
      (Value.object (imageMember none ++ [(kind, entry), ("type", .string kind)])).sorted
      (Value.object
        (imageMember (some image) ++ [(kind, entry), ("type", .string kind)])).sorted := by
  have different : "image" ≠ kind := String.ne_of_lt (List.rel_of_pairwise_cons ordered (.head _))
  have single : (Value.object [(kind, entry), ("type", .string kind)]).sorted =
      .object (Value.innerSorted [(kind, entry), ("type", .string kind)]) :=
    Value.sorted_object (List.pairwise_cons.mp ordered).2
  have named : (Value.object
      [("image", .string image), (kind, entry), ("type", .string kind)]).sorted =
        .object (Value.innerSorted
          [("image", .string image), (kind, entry), ("type", .string kind)]) :=
    Value.sorted_object ordered
  have absent :
      (Value.innerSorted [(kind, entry), ("type", .string kind)]).lookup "image" = none := by
    simp [Value.innerSorted, List.lookup_cons, beq_false_of_ne different]
  exact single ▸ named ▸ .front absent

/-- The records of a listing with the name of its image differ in nothing else. -/
theorem namedAs_records (image : String) (listing : Listing) :
    List.Forall₂ (Value.NamedAs image) (listing.records none) (listing.records (some image)) := by
  refine List.rel_append ?lines ?stop
  case lines =>
    refine List.forall₂_map_left_iff.mpr (List.forall₂_map_right_iff.mpr ?_)
    exact List.forall₂_same.mpr fun line _ => namedAs_sorted _ _ _ (by decide)
  case stop =>
    refine List.forall₂_map_left_iff.mpr (List.forall₂_map_right_iff.mpr ?_)
    exact List.forall₂_same.mpr fun stop _ => namedAs_sorted _ _ _ (by decide)

/-- The lines of the records of a listing with the name of its image differ in nothing else. -/
theorem namedLine_records (image : String) (listing : Listing) :
    List.Forall₂ (NamedLine image) ((listing.records none).map Value.compact)
      ((listing.records (some image)).map Value.compact) := by
  refine List.forall₂_map_left_iff.mpr (List.forall₂_map_right_iff.mpr ?_)
  have typed : ∀ record ∈ listing.records none, ∃ kind,
      record.member? "type" = some (.string kind) := by
    intro record among
    rcases List.mem_append.mp among with among | among
    · obtain ⟨line, -, rfl⟩ := List.mem_map.mp among
      exact ⟨_, (records_lineRecord line).named⟩
    · obtain ⟨stop, -, rfl⟩ := List.mem_map.mp among
      exact ⟨_, (records_stopRecord stop).named⟩
  have named := namedAs_records image listing
  generalize listing.records none = records, listing.records (some image) = others at typed named
  induction named with
  | nil => exact .nil
  | cons first _ ih =>
    obtain ⟨⟨kind, member⟩, rest⟩ := List.forall_mem_cons.mp typed
    exact .cons (first.line member) (ih rest)

end Listing

namespace Batch

/-- The output of several listings is made of those of the single ones, whatever the format. -/
structure MadeOfSingles (batch : Batch) : Prop where
  /-- The text is that of each listing, one behind the other. -/
  text : batch.format .text = String.join (batch.map fun (_, listing) => listing.format .text)
  /-- Wherever the text of a listing is put behind the texts before it, no line feed is added. -/
  unchanged : ∀ before image listing after, batch = before ++ (image, listing) :: after →
    endLine (Batch.format before .text ++ listing.format .text) =
      Batch.format before .text ++ listing.format .text
  /-- The records on lines are those of each listing, with the name of its image. -/
  records : ∃ records, Value.OnLines (batch.format .jsonLines).toList records ∧
    batch.Gathers (fun listing => Value.OnLines (listing.format .jsonLines).toList)
      Value.NamedAs records
  /-- Character by character the lines are those of each listing, with the name of its image. -/
  lines : ∃ lines, (batch.format .jsonLines).toList.splitOn '\n' = lines ++ [[]] ∧
    batch.Gathers
      (fun listing lines => (listing.format .jsonLines).toList.splitOn '\n' = lines ++ [[]])
      NamedLine lines
  /-- Behind its header the table has the rows of each listing, with the name of its image in front
  of each one. -/
  rows : ∃ rows, Csv.read? (batch.format .csv).toList = some (("image" :: tableHeader) :: rows) ∧
    (batch.format .csv).toList = Csv.table (("image" :: tableHeader) :: rows) ∧
    batch.Gathers
      (fun listing rows => Csv.read? (listing.format .csv).toList = some (tableHeader :: rows) ∧
        (listing.format .csv).toList = Csv.table (tableHeader :: rows))
      (fun image row named => named = image :: row) rows
  /-- The document is an array of the document of each listing, with the name of its image. -/
  documents : ∃ documents, Value.parse? (batch.format .json).toList = some (.array documents) ∧
    batch.Gathers
      (fun listing documents => ∃ document, documents = [document] ∧
        Value.parse? (listing.format .json).toList = some document)
      Value.NamedAs documents

/-- The array of the documents of several listings is read. -/
theorem parse?_json (batch : Batch) : Value.parse? (batch.format .json).toList =
    some (.array (batch.map fun (image, listing) => listing.toValue (some image))) := by
  show Value.parse? (String.ofList batch.jsonCharacters).toList = _
  rw [String.toList_ofList]
  exact Value.parse?_ended (Or.inr rfl)

/-- The output of several listings is made of the outputs of the single ones, in their order: texts
behind each other, and records, rows or documents that differ in the name of their own image
only. -/
theorem format_made_of_singles (batch : Batch) : batch.MadeOfSingles where
  text := batch.format_text
  unchanged before _ listing _ _ :=
    endLine_of_ended ((ended_text before).append listing.ended_text)
  records := by
    refine ⟨batch.flatMap fun entry => entry.2.records (some entry.1), ?_, ?_⟩
    · show Value.OnLines (String.ofList batch.jsonLinesCharacters).toList _
      rw [String.toList_ofList]
      exact Value.onLines_recordLines _
    · exact gathers_flatMap _ (fun image listing => listing.records (some image))
        Listing.onLines_jsonLines Listing.namedAs_records batch
  lines := by
    refine ⟨batch.flatMap fun entry => (entry.2.records (some entry.1)).map Value.compact, ?_, ?_⟩
    · show (String.ofList batch.jsonLinesCharacters).toList.splitOn '\n' = _
      rw [String.toList_ofList, jsonLinesCharacters, Value.splitOn_recordLines, List.map_flatMap]
    · refine gathers_flatMap _
        (fun image listing => (listing.records (some image)).map Value.compact)
        (fun listing => ?_) Listing.namedLine_records batch
      show (String.ofList listing.jsonLinesCharacters).toList.splitOn '\n' = _
      rw [String.toList_ofList, Listing.jsonLinesCharacters, Value.splitOn_recordLines]
  rows := by
    refine ⟨batch.tableRows, batch.read?_csv, String.toList_ofList, ?_⟩
    refine gathers_flatMap Listing.tableRows
      (fun image listing => listing.tableRows.map (image :: ·))
      (fun listing => ⟨listing.read?_csv, String.toList_ofList⟩) (fun image listing => ?_) batch
    exact List.forall₂_map_right_iff.mpr (List.forall₂_same.mpr fun row _ => rfl)
  documents := by
    refine ⟨_, batch.parse?_json, ?_⟩
    rw [List.map_eq_flatMap]
    refine gathers_flatMap (fun listing => [listing.toValue none])
      (fun image listing => [listing.toValue (some image)])
      (fun listing => ⟨_, rfl, listing.parse?_json⟩) (fun image listing => ?_) batch
    exact .cons (Listing.namedAs_toValue image listing) .nil

end Batch

end Disassembler
