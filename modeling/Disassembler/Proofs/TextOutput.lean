import Disassembler.Format.Output
import Disassembler.Proofs.LineSearch
import Disassembler.Proofs.Lines
import Disassembler.Proofs.Recovery

/-!
# Reading listings back from their text

Each row of a listing starts with its offset and its source line, which are words without blanks.
The name of an opcode is such a word too, so it ends where the row ends or at the blank before the
operands. The first word of a fault is no name of an opcode. So a row tells what it shows, and if no
line feed is in the operands the text tells its rows. What it does not tell are the files.
-/

namespace Disassembler

/-- What is before a separator and what is behind it are told by the whole, if the separator is not
in what is before it. -/
theorem eq_of_append_separator {α : Type} {first first' rest rest' : List α} {separator : α}
    (absent : separator ∉ first) (absent' : separator ∉ first')
    (same : first ++ separator :: rest = first' ++ separator :: rest') :
    first = first' ∧ rest = rest' := by
  induction first generalizing first' with
  | nil =>
    cases first' with
    | nil => exact ⟨rfl, (List.cons.inj same).2⟩
    | cons head' tail' =>
      have head : separator = head' := (List.cons.inj same).1
      exact absurd (head ▸ List.mem_cons_self) absent'
  | cons head tail ih =>
    cases first' with
    | nil =>
      have head' : head = separator := (List.cons.inj same).1
      exact absurd (head' ▸ List.mem_cons_self) absent
    | cons head' tail' =>
      obtain ⟨heads, tails⟩ := List.cons.inj same
      have further : tail = tail' ∧ rest = rest' :=
        ih (fun among => absent (.tail _ among)) (fun among => absent' (.tail _ among)) tails
      exact ⟨by rw [heads, further.1], further.2⟩

/-- A text is one word: neither a blank nor a line feed is in it. -/
structure OneWord (text : String) : Prop where
  /-- There is no blank. -/
  noBlank : ' ' ∉ text.toList
  /-- There is no line feed. -/
  noNewLine : '\n' ∉ text.toList

/-- The decimal text of a number is one word. -/
theorem oneWord_repr (value : Nat) : OneWord value.repr := by
  have digits : ∀ c ∈ value.repr.toList, c.isDigit = true := by
    intro c among
    rw [Nat.toList_repr] at among
    exact Nat.isDigit_of_mem_toDigits (by decide) (by decide) among
  constructor
  · intro among
    cases digits _ among
  · intro among
    cases digits _ among

/-- The decimal text of an integer is one word. -/
theorem oneWord_int (value : Int) : OneWord value.repr := by
  cases value with
  | ofNat value => exact oneWord_repr value
  | negSucc value =>
    have digits : OneWord (value + 1).repr := oneWord_repr (value + 1)
    have text : (Int.negSucc value).repr = "-" ++ (value + 1).repr := rfl
    constructor
    · rw [text, String.toList_append]
      exact List.not_mem_cons_of_ne_of_not_mem (by decide) digits.noBlank
    · rw [text, String.toList_append]
      exact List.not_mem_cons_of_ne_of_not_mem (by decide) digits.noNewLine

/-- The text of a word of the stream is one word. -/
theorem Word.oneWord_text (word : Word) : OneWord (Word.text word) := oneWord_int word.toInt

/-- The name of an opcode is one word. -/
theorem Opcode.oneWord_mnemonic (opcode : Opcode) : OneWord opcode.mnemonic := by
  have each : ∀ row ∈ rows.toList, row.mnemonic.toList.all (' ' < ·) = true := by
    decide +kernel
  have above := List.all_eq_true.mp (each opcode.row (Array.getElem_mem_toList _))
  constructor
  · intro among
    exact absurd (above _ among) (by decide)
  · intro among
    exact absurd (above _ among) (by decide)

/-- The characters of an offset and a source line. -/
theorem toList_positionText (offset : Nat) (line : Word) (behind : String) :
    (positionText offset line ++ behind).toList =
      'I' :: ' ' :: (offset.repr.toList ++ ' ' :: 'L' :: ' ' ::
        ((Word.text line).toList ++ ' ' :: behind.toList)) := by
  have digits : toString offset = offset.repr := rfl
  simp [positionText, digits]

/-- An offset and a source line are told by each text that starts with them. -/
theorem positionText_inj {offset offset' : Nat} {line line' : Word} {behind behind' : String}
    (same : positionText offset line ++ behind = positionText offset' line' ++ behind') :
    offset = offset' ∧ line = line' ∧ behind = behind' := by
  have characters := congrArg String.toList same
  rw [toList_positionText, toList_positionText] at characters
  obtain ⟨offsets, rest⟩ := eq_of_append_separator (oneWord_repr offset).noBlank
    (oneWord_repr offset').noBlank (List.cons.inj (List.cons.inj characters).2).2
  obtain ⟨lines, behinds⟩ := eq_of_append_separator (Word.oneWord_text line).noBlank
    (Word.oneWord_text line').noBlank (List.cons.inj (List.cons.inj rest).2).2
  exact ⟨repr_inj.mp (String.toList_inj.mp offsets), Word.text_inj.mp (String.toList_inj.mp lines),
    String.toList_inj.mp behinds⟩

/-- The characters of a name and of the operands behind it. -/
theorem toList_joinOperands (mnemonic operands : String) :
    (joinOperands mnemonic operands).toList =
      if operands = "" then mnemonic.toList else mnemonic.toList ++ ' ' :: operands.toList := by
  unfold joinOperands
  by_cases empty : operands = "" <;> simp [empty]

/-- A name that is one word, and the operands behind it, are told by their text. No operands are not
taken for some. -/
theorem joinOperands_inj {mnemonic mnemonic' operands operands' : String}
    (named : OneWord mnemonic) (named' : OneWord mnemonic')
    (same : joinOperands mnemonic operands = joinOperands mnemonic' operands') :
    mnemonic = mnemonic' ∧ operands = operands' := by
  have characters := congrArg String.toList same
  rw [toList_joinOperands, toList_joinOperands] at characters
  by_cases empty : operands = ""
  · rw [if_pos empty] at characters
    by_cases empty' : operands' = ""
    · rw [if_pos empty'] at characters
      exact ⟨String.toList_inj.mp characters, empty.trans empty'.symm⟩
    · rw [if_neg empty'] at characters
      have blank : ' ' ∈ mnemonic.toList := by simp [characters]
      exact absurd blank named.noBlank
  · rw [if_neg empty] at characters
    by_cases empty' : operands' = ""
    · rw [if_pos empty'] at characters
      have blank : ' ' ∈ mnemonic'.toList := by simp [← characters]
      exact absurd blank named'.noBlank
    · rw [if_neg empty'] at characters
      obtain ⟨names, texts⟩ := eq_of_append_separator named.noBlank named'.noBlank characters
      exact ⟨String.toList_inj.mp names, String.toList_inj.mp texts⟩

namespace DecodeFault

/-- The first word of the text of a fault. -/
def firstWord : DecodeFault → String
  | .illegalOpcode _ => "ILLEGAL"
  | .truncated _ _ => "TRUNCATED"
  | .badCallTarget _ => "BAD"

/-- The rest of the text of a fault. -/
def otherWords : DecodeFault → String
  | .illegalOpcode word => "INSTRUCTION: " ++ Word.text word
  | .truncated _ needed => "INSTRUCTION: needs " ++ toString needed ++ " more word(s)"
  | .badCallTarget target => "CALL TARGET: " ++ Word.text target

/-- The text of a fault is written as that of an instruction would be. -/
theorem message_eq (fault : DecodeFault) :
    fault.message = joinOperands fault.firstWord fault.otherWords := by
  have split (first rest : String) (nonempty : rest ≠ "") :
      joinOperands first rest = first ++ " " ++ rest := by
    simp [joinOperands, nonempty]
  cases fault with
  | illegalOpcode word =>
    show "ILLEGAL INSTRUCTION: " ++ Word.text word =
      joinOperands "ILLEGAL" ("INSTRUCTION: " ++ Word.text word)
    rw [split _ _ (by simp)]
    simp [← String.toList_inj]
  | truncated offset needed =>
    show "TRUNCATED INSTRUCTION: needs " ++ toString needed ++ " more word(s)" =
      joinOperands "TRUNCATED" ("INSTRUCTION: needs " ++ toString needed ++ " more word(s)")
    rw [split _ _ (by simp)]
    simp [← String.toList_inj]
  | badCallTarget target =>
    show "BAD CALL TARGET: " ++ Word.text target =
      joinOperands "BAD" ("CALL TARGET: " ++ Word.text target)
    rw [split _ _ (by simp)]
    simp [← String.toList_inj]

/-- The first word of the text of a fault is one word. -/
theorem oneWord_firstWord (fault : DecodeFault) : OneWord fault.firstWord := by
  have each : ∀ text ∈ ["ILLEGAL", "TRUNCATED", "BAD"],
      ' ' ∉ text.toList ∧ '\n' ∉ text.toList := by
    decide
  have known : fault.firstWord ∈ ["ILLEGAL", "TRUNCATED", "BAD"] := by
    cases fault <;> simp [firstWord]
  exact ⟨(each _ known).1, (each _ known).2⟩

/-- The first word of the text of a fault is no name of an opcode. -/
theorem firstWord_ne_mnemonic (fault : DecodeFault) (opcode : Opcode) :
    fault.firstWord ≠ opcode.mnemonic := by
  have known : fault.firstWord ∈ ["ILLEGAL", "TRUNCATED", "BADCALL", "BAD"] := by
    cases fault <;> simp [firstWord]
  intro same
  rw [same] at known
  exact opcode.mnemonic_notMem known

/-- There is no line feed in the text of a fault. -/
theorem newLine_notMem_message (fault : DecodeFault) : '\n' ∉ fault.message.toList := by
  cases fault with
  | illegalOpcode word =>
    show '\n' ∉ ("ILLEGAL INSTRUCTION: " ++ Word.text word).toList
    simp [(Word.oneWord_text word).noNewLine]
  | truncated offset needed =>
    show '\n' ∉ ("TRUNCATED INSTRUCTION: needs " ++ needed.repr ++ " more word(s)").toList
    rw [String.toList_append, String.toList_append]
    simp only [List.mem_append, (oneWord_repr needed).noNewLine]
    decide
  | badCallTarget target =>
    show '\n' ∉ ("BAD CALL TARGET: " ++ Word.text target).toList
    simp [(Word.oneWord_text target).noNewLine]

end DecodeFault

/-- A line without its file. -/
def Line.unfiled (line : Line) : Line := { line with file := none }

/-- A stop without its file. -/
def Stop.unfiled (stop : Stop) : Stop := { stop with file := none }

/-- A listing without its files. -/
def Listing.unfiled (listing : Listing) : Listing where
  lines := listing.lines.map Line.unfiled
  stop := listing.stop.map Stop.unfiled

/-- A line has the name of an opcode. -/
def Line.Named (line : Line) : Prop := ∃ opcode : Opcode, line.mnemonic = opcode.mnemonic

/-- The name of an opcode in a line is one word. -/
theorem Line.Named.oneWord {line : Line} (named : line.Named) : OneWord line.mnemonic := by
  obtain ⟨opcode, mnemonic⟩ := named
  exact mnemonic ▸ opcode.oneWord_mnemonic

/-- The text of a line tells all but the file. -/
theorem Line.unfiled_of_text {line line' : Line} (named : line.Named) (named' : line'.Named)
    (same : line.text = line'.text) : line.unfiled = line'.unfiled := by
  obtain ⟨offsets, numbers, behind⟩ := positionText_inj same
  obtain ⟨mnemonics, texts⟩ := joinOperands_inj named.oneWord named'.oneWord behind
  simp only [unfiled, offsets, numbers, mnemonics, texts]

/-- The text of a stop tells all but the file and the offset of an instruction that is truncated. -/
theorem Stop.unplaced_of_text {stop stop' : Stop} (same : stop.text = stop'.text) :
    stop.unfiled.unplaced = stop'.unfiled.unplaced := by
  obtain ⟨offsets, numbers, messages⟩ := positionText_inj same
  simp only [unfiled, unplaced, offsets, numbers, DecodeFault.unplaced_of_message messages]

/-- The text of a stop is that of no line. -/
theorem Stop.text_ne_text (stop : Stop) {line : Line} (named : line.Named) :
    stop.text ≠ line.text := by
  intro same
  obtain ⟨-, -, behind⟩ := positionText_inj same
  rw [stop.fault.message_eq] at behind
  obtain ⟨words, -⟩ := joinOperands_inj stop.fault.oneWord_firstWord named.oneWord behind
  obtain ⟨opcode, mnemonic⟩ := named
  exact stop.fault.firstWord_ne_mnemonic opcode (words.trans mnemonic)

/-- A line feed in a row of a listing is in what is behind the source line. -/
theorem newLine_mem_positionText {offset : Nat} {line : Word} {behind : String} :
    '\n' ∈ (positionText offset line ++ behind).toList ↔ '\n' ∈ behind.toList := by
  have offsets : '\n' ∉ offset.repr.toList := (oneWord_repr offset).noNewLine
  have numbers : '\n' ∉ (Word.text line).toList := (Word.oneWord_text line).noNewLine
  rw [toList_positionText]
  simp only [List.mem_cons, List.mem_append, offsets, numbers, Char.reduceEq, false_or]

/-- A line feed in the text of a line is in its operands. -/
theorem Line.newLine_mem_text {line : Line} (named : line.Named) :
    '\n' ∈ line.text.toList ↔ '\n' ∈ line.operands.toList := by
  have mnemonics : '\n' ∉ line.mnemonic.toList := named.oneWord.noNewLine
  rw [text, newLine_mem_positionText, toList_joinOperands]
  by_cases empty : line.operands = ""
  · simp [empty, mnemonics]
  · rw [if_neg empty]
    simp [mnemonics]

/-- There is no line feed in the text of a stop. -/
theorem Stop.newLine_notMem_text (stop : Stop) : '\n' ∉ stop.text.toList := by
  rw [text, newLine_mem_positionText]
  exact stop.fault.newLine_notMem_message

namespace Listing

variable {listing listing' : Listing}

/-- In the text of a listing each row has a line feed behind it. -/
theorem toList_text (listing : Listing) :
    (listing.format .text).toList = Lines.joined (listing.rows.map String.toList) := by
  show listing.text.toList = _
  rw [text, Lines.joined, String.toList_join, List.flatMap_map, List.flatMap_map]
  congr 1
  funext row
  exact String.toList_append

/-- A line feed in a row of the listing of an image is in the operands of a line. -/
theorem Produced.rows_plain_iff (produced : listing.Produced) :
    (∀ row ∈ listing.rows.map String.toList, '\n' ∉ row) ↔
      ∀ line ∈ listing.lines, '\n' ∉ line.operands.toList := by
  constructor
  · intro plain line among
    have row : line.text.toList ∈ listing.rows.map String.toList :=
      List.mem_map_of_mem (List.mem_append_left _ (List.mem_map_of_mem among))
    exact fun inside => plain _ row ((Line.newLine_mem_text (produced.named line among)).mpr inside)
  · intro plain characters among
    obtain ⟨row, here, rfl⟩ := List.mem_map.mp among
    rcases List.mem_append.mp here with here | here
    · obtain ⟨line, listed, rfl⟩ := List.mem_map.mp here
      have named : line.Named := produced.named line listed
      exact fun inside => plain line listed ((Line.newLine_mem_text named).mp inside)
    · obtain ⟨stop, -, rfl⟩ := List.mem_map.mp here
      exact stop.newLine_notMem_text

/-- No file is in a row. -/
theorem rows_unfiled (listing : Listing) : listing.unfiled.rows = listing.rows := by
  rw [rows, unfiled, List.map_map, Option.toList_map, List.map_map]
  rfl

/-- Without its files the listing of an image is produced, too. -/
theorem Produced.unfiled (produced : listing.Produced) : listing.unfiled.Produced where
  named line among := by
    obtain ⟨original, here, rfl⟩ := List.mem_map.mp among
    exact produced.named original here
  placed stop stopped := by
    obtain ⟨original, here, rfl⟩ := Option.map_eq_some_iff.mp stopped
    exact produced.placed original here

/-- The rows of the listing of an image tell all but the files. -/
theorem Produced.unfiled_of_rows (produced : listing.Produced) (produced' : listing'.Produced)
    (same : listing.rows = listing'.rows) : listing.unfiled = listing'.unfiled := by
  obtain ⟨lines, stops⟩ := Recovery.map_append_inj
    (fun line among stop => stop.text_ne_text (produced.named line among))
    (fun line among stop => stop.text_ne_text (produced'.named line among)) same
  have unfiledLines : listing.lines.map Line.unfiled = listing'.lines.map Line.unfiled :=
    Recovery.map_eq_of_map_eq (fun line among line' among' same =>
      Line.unfiled_of_text (produced.named line among) (produced'.named line' among') same) lines
  have unplacedStops : (listing.stop.map Stop.unfiled).map Stop.unplaced =
      (listing'.stop.map Stop.unfiled).map Stop.unplaced := by
    rw [Option.map_map, Option.map_map]
    exact Recovery.optionMap_eq_of_optionMap_eq (fun _ _ => Stop.unplaced_of_text) stops
  refine produced.unfiled.eq_of_unplaced produced'.unfiled ?_
  simp only [Listing.unplaced, Listing.unfiled, unfiledLines, unplacedStops]

/-- Listings of images without line feeds in their operands have the same text exactly if they are
the same but for the files. -/
theorem Produced.text_eq_iff (produced : listing.Produced) (produced' : listing'.Produced)
    (plain : ∀ line ∈ listing.lines, '\n' ∉ line.operands.toList)
    (plain' : ∀ line ∈ listing'.lines, '\n' ∉ line.operands.toList) :
    listing.format .text = listing'.format .text ↔ listing.unfiled = listing'.unfiled := by
  constructor
  · intro same
    have texts := congrArg String.toList same
    rw [listing.toList_text, listing'.toList_text] at texts
    have rows := Lines.joined_inj (produced.rows_plain_iff.mpr plain)
      (produced'.rows_plain_iff.mpr plain') texts
    have rows : listing.rows = listing'.rows :=
      (List.map_inj_right fun _ _ => String.toList_inj.mp).mp rows
    exact produced.unfiled_of_rows produced' rows
  · intro same
    show String.join (listing.rows.map (· ++ "\n")) = String.join (listing'.rows.map (· ++ "\n"))
    rw [← rows_unfiled listing, same, rows_unfiled]

/-- There are as many lines in the text of the listing of an image as it has rows exactly if no line
feed is in the operands. -/
theorem Produced.count_text_iff (produced : listing.Produced) :
    (listing.format .text).toList.count '\n' =
        listing.lines.length + listing.stop.toList.length ↔
      ∀ line ∈ listing.lines, '\n' ∉ line.operands.toList := by
  have length : (listing.rows.map String.toList).length =
      listing.lines.length + listing.stop.toList.length := by
    rw [rows, List.length_map, List.length_append, List.length_map, List.length_map]
  rw [toList_text, ← produced.rows_plain_iff, ← Lines.count_joined_eq_iff, length]

end Listing

/-- Listings of images are read back from their text, if no line feed is in the operands. Images
with the same text have the same listing, up to files. No line has the text of a stop, and a line
tells whether it has operands. There is one line less than the text has exactly if the listing
stops. -/
theorem text_reads_back (image image' : Image) (natives natives' : Natives)
    (listing listing' : Listing) (swept : image.sweep? natives = some listing)
    (swept' : image'.sweep? natives' = some listing')
    (plain : ∀ line ∈ listing.lines, '\n' ∉ line.operands.toList)
    (plain' : ∀ line ∈ listing'.lines, '\n' ∉ line.operands.toList) :
    (listing.format .text = listing'.format .text ↔ listing.unfiled = listing'.unfiled) ∧
      (∀ stop ∈ listing.stop, ∀ line ∈ listing'.lines, stop.text ≠ line.text) ∧
      (∀ line ∈ listing.lines, ∀ line' ∈ listing'.lines, line.text = line'.text →
        line.unfiled = line'.unfiled) ∧
      (listing.format .text).toList.count '\n' =
        listing.lines.length + listing.stop.toList.length ∧
      (listing.lines.length + 1 = (listing.format .text).toList.count '\n' ↔
        listing.isComplete = false) := by
  have produced : listing.Produced := Image.produced_of_sweep? swept
  have produced' : listing'.Produced := Image.produced_of_sweep? swept'
  have count := produced.count_text_iff.mpr plain
  refine ⟨produced.text_eq_iff produced' plain plain', ?apart, ?told, count, ?stopped⟩
  case apart =>
    intro stop _ line among
    exact stop.text_ne_text (produced'.named line among)
  case told =>
    intro line among line' among' same
    exact Line.unfiled_of_text (produced.named line among) (produced'.named line' among') same
  case stopped =>
    rw [count, Listing.isComplete]
    cases listing.stop <;> simp

namespace Image

/-- The sample in a file. -/
def sampleIn (file : String) : Image := { sample with files := #[file] }

/-- The listing of the sample in a file, which shows the name of the file in each row. -/
def sampleListing (file : String) : Listing where
  lines := [⟨0, 1, some file, "FUNSTART", "?0(=> [0])"⟩, ⟨6, 1, some file, "CALL", "0 ?0 0"⟩]
  stop := some ⟨8, 1, some file, .illegalOpcode (-1)⟩

/-- The sample in a file has this listing. -/
theorem sweep?_sampleIn (file : String) :
    (sampleIn file).sweep? {} = some (sampleListing file) := by
  have sourced : 0 < (sampleIn file).lines.size := Nat.one_pos
  have path : Path (sampleIn file).code 0
      [⟨0, .functionStart, .functionHeader ⟨0, [], [], 0, []⟩, 5⟩,
        ⟨6, .call, .callSite ⟨0, 0⟩ 0, 1⟩] 8 := by
    show Path sample.code 0 _ 8
    exact .cons (by decide +kernel) (.cons (by decide +kernel) (.nil 8))
  have failed : Instruction.decode (sampleIn file).code 8 = .error (.illegalOpcode (-1)) := by
    show Instruction.decode sample.code 8 = _
    decide +kernel
  have inside : 8 < (sampleIn file).code.size := by
    show 8 < sample.code.size
    decide
  have follows : (sampleIn file).Follows {} sourced _ 8 ⟨_, _⟩ :=
    ⟨path, rfl, .stopped inside failed⟩
  have located (offset : Nat) : LineTable.locate (sampleIn file).lines sourced offset = ⟨0, 1, 0⟩ :=
    LineTable.locate_singleton _ sourced offset
  have header : (Operands.functionHeader ⟨0, [], [], 0, []⟩).text (sampleIn file).toNameTables {} =
      "?0(=> [0])" := by
    show Operands.text {} {} _ = _
    decide +kernel
  have call : (Operands.callSite ⟨0, 0⟩ 0).text (sampleIn file).toNameTables {} = "0 ?0 0" := by
    show Operands.text {} {} _ = _
    decide +kernel
  have named : (sampleIn file).fileName? 0 = some file := rfl
  obtain ⟨callName, -, headerName, -⟩ := Opcode.mnemonic_named
  rw [follows.sweep?_eq, stopAt, sampleListing]
  simp only [List.map_cons, List.map_nil, listedAt, located, listed,
    Instruction.operandText, header, call, named, callName, headerName]

/-- Whatever the name of the file, the sample has the same text. -/
theorem text_reads_back_files :
    (sampleIn "a").sweep? {} = some (sampleListing "a") ∧
      (sampleIn "b").sweep? {} = some (sampleListing "b") ∧
      (∀ line ∈ (sampleListing "a").lines, '\n' ∉ line.operands.toList) ∧
      (∀ line ∈ (sampleListing "b").lines, '\n' ∉ line.operands.toList) ∧
      (sampleListing "a").format .text = (sampleListing "b").format .text ∧
      ((sampleListing "a").format .text).toList.count '\n' = 3 := by
  have plain (file : String) :
      ∀ line ∈ (sampleListing file).lines, '\n' ∉ line.operands.toList := by
    simp only [sampleListing, List.forall_mem_cons]
    exact ⟨by decide, by decide, List.forall_mem_nil _⟩
  obtain ⟨same, -, -, count, -⟩ := text_reads_back _ _ {} {} _ _ (sweep?_sampleIn "a")
    (sweep?_sampleIn "b") (plain "a") (plain "b")
  exact ⟨sweep?_sampleIn "a", sweep?_sampleIn "b", plain "a", plain "b", same.mpr rfl, count⟩

end Image

end Disassembler
