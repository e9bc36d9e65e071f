import Disassembler.Proofs.Attribution
import Disassembler.Proofs.RoundTrip
import Disassembler.Proofs.TextOutput
import Mathlib.Data.List.Forall2

/-!
# Names in rows

The operands of an instruction are shown with names as the tables hold them. So a name with a line
feed in it takes a row apart into several lines, and nothing else does: numbers have no line feeds,
and a string is quoted. The text of a listing has one line for each row exactly if no line feed is
in the names that are shown.
-/

namespace Disassembler

namespace Operands

variable (tables : NameTables) (natives : Natives)

/-- The names of the tables that are shown in operands. The texts of strings are not among them. -/
def names : Operands → List String
  | .returnSite function => (tables.functionName? function).toList
  | .callSite callee _ => (tables.functionName? callee.function).toList
  | .newStruct type =>
    (((tables.typeEntry? type).bind (·.struct?)).bind tables.structName?).toList
  | .native number => (natives.name? number).toList
  | .variable index => (tables.variableName? index).toList
  | .functionHeader header =>
    (if header.function.toInt < 0 then [] else (tables.functionName? header.function).toList) ++
      (header.parameters ++ header.results ++ header.owned).flatMap fun index =>
        (tables.variableName? index).toList
  | .dispatchHeader function _ _ => (tables.functionName? function).toList
  | _ => []

end Operands

/-- A line feed is in one of some names. -/
def BrokenIn (names : List String) : Prop := ∃ name ∈ names, '\n' ∈ name.toList

/-- A line feed is in names if it is in the first ones or in the others. -/
theorem brokenIn_append {names others : List String} :
    BrokenIn (names ++ others) ↔ BrokenIn names ∨ BrokenIn others := by
  simp only [BrokenIn, List.mem_append, or_and_right, exists_or]

/-- No line feed is in no names. -/
theorem not_brokenIn_nil : ¬ BrokenIn [] := by simp [BrokenIn]

/-- There is no line feed in the text of a word. -/
theorem Word.newLine_notMem_text (word : Word) : '\n' ∉ (Word.text word).toList :=
  (Word.oneWord_text word).noNewLine

/-- A line feed in what is shown for an index is in its name. -/
theorem newLine_mem_nameOr {name : Option String} {index : Word} :
    '\n' ∈ (nameOr name index).toList ↔ BrokenIn name.toList := by
  cases name with
  | none => simp [nameOr, BrokenIn, Word.newLine_notMem_text]
  | some name => simp [nameOr, BrokenIn]

namespace NameTables

variable (tables : NameTables)

/-- A line feed in what is shown for specialised identifiers is in one of their names. -/
theorem newLine_mem_showVariables {indices : List Word} :
    '\n' ∈ (tables.showVariables indices).toList ↔
      BrokenIn (indices.flatMap fun index => (tables.variableName? index).toList) := by
  induction indices with
  | nil => simp [showVariables, BrokenIn]
  | cons index rest ih =>
    have head : '\n' ∈ (tables.showVariable index).toList ↔
        BrokenIn (tables.variableName? index).toList := newLine_mem_nameOr
    rw [List.flatMap_cons, brokenIn_append, ← ih, ← head]
    simp [showVariables]

/-- A line feed in what is shown for the struct of a type is in the name of the struct. -/
theorem newLine_mem_showStructOfType {type : Word} :
    '\n' ∈ (tables.showStructOfType type).toList ↔
      BrokenIn (((tables.typeEntry? type).bind (·.struct?)).bind tables.structName?).toList := by
  unfold showStructOfType
  cases (tables.typeEntry? type).bind (·.struct?) with
  | none => simp [BrokenIn, Word.newLine_notMem_text]
  | some struct => exact newLine_mem_nameOr

/-- There is no line feed in a quoted string. -/
theorem newLine_notMem_showString {index : Word} : '\n' ∉ (tables.showString index).toList := by
  unfold showString
  rw [newLine_mem_nameOr]
  rintro ⟨quoted, among, inside⟩
  obtain ⟨text, -, rfl⟩ := Option.map_eq_some_iff.mp (Option.mem_toList.mp among)
  rw [Text.Quoted.quote, String.toList_ofList, Text.Quoted.encode] at inside
  simp only [List.mem_cons, List.mem_append, List.mem_flatMap, Char.reduceEq, false_or,
    List.not_mem_nil, or_false] at inside
  obtain ⟨c, -, written⟩ := inside
  have plain : Text.Quoted.isControl '\n' = false :=
    Text.Quoted.isControl_eq_false_of_mem_escape written
  cases plain

/-- A line feed in a signature is in one of the names in it. -/
theorem newLine_mem_showHeader {header : FunctionHeader} :
    '\n' ∈ (tables.showHeader header).toList ↔
      BrokenIn ((Operands.functionHeader header).names tables {}) := by
  have function : '\n' ∈ (if header.function.toInt < 0 then "__dummy"
      else tables.showFunction header.function).toList ↔
        BrokenIn (if header.function.toInt < 0 then []
          else (tables.functionName? header.function).toList) := by
    split
    · simp [BrokenIn]
    · exact newLine_mem_nameOr
  simp only [showHeader, Operands.names, String.toList_append, List.mem_append, function,
    tables.newLine_mem_showVariables, List.flatMap_append, brokenIn_append,
    Word.newLine_notMem_text]
  simp [or_assoc]

end NameTables

/-- There is no line feed in the plain text of a decimal number. -/
theorem Decimal.newLine_notMem_plain (number : Decimal) : '\n' ∉ number.plain := by
  have digits : '\n' ∉ Nat.toDigits 10 number.digits := by
    intro among
    cases Nat.isDigit_of_mem_toDigits (by decide) (by decide) among
  have zeros (count : Nat) : '\n' ∉ Decimal.zeros count := by simp [Decimal.zeros]
  unfold plain
  split
  · simp [digits, zeros]
  · have padded (count : Nat) : '\n' ∉ Decimal.zeros count ++ Nat.toDigits 10 number.digits := by
      simp [digits, zeros]
    intro among
    rcases List.mem_append.mp among with among | among
    · exact padded _ (List.mem_of_mem_take among)
    · rcases List.mem_cons.mp among with point | among
      · cases point
      · exact padded _ (List.mem_of_mem_drop among)

/-- There is no line feed in the text of a binary number. -/
theorem BinaryFormat.newLine_notMem_text (format : BinaryFormat) (pattern : Nat) :
    '\n' ∉ (format.text pattern).toList := by
  have sign (negative : Bool) : '\n' ∉ (if negative then ['-'] else []) := by
    cases negative <;> decide
  rw [text, String.toList_ofList, characters]
  cases format.value pattern with
  | finite negative significand exponent narrow =>
    have magnitude : '\n' ∉ magnitudeText significand exponent narrow := by
      unfold magnitudeText
      split
      · decide
      · exact Decimal.newLine_notMem_plain _
    exact List.not_mem_append (sign negative) magnitude
  | infinite negative => exact List.not_mem_append (sign negative) (by decide)
  | nan => decide

namespace Operands

variable (tables : NameTables) (natives : Natives)

/-- A line feed in the text of operands is in one of the names that are shown in them. -/
theorem newLine_mem_text (operands : Operands) :
    '\n' ∈ (operands.text tables natives).toList ↔ BrokenIn (operands.names tables natives) := by
  have named (function : Word) : '\n' ∈ (tables.showFunction function).toList ↔
      BrokenIn (tables.functionName? function).toList := newLine_mem_nameOr
  match operands with
  | .none => exact iff_of_false (by simp [text]) not_brokenIn_nil
  | .int value => exact iff_of_false (Word.newLine_notMem_text value) not_brokenIn_nil
  | .int64 low high =>
    exact iff_of_false (oneWord_int (signedPair low high)).noNewLine not_brokenIn_nil
  | .float64 low high =>
    exact iff_of_false (BinaryFormat.newLine_notMem_text _ _) not_brokenIn_nil
  | .float32 pattern =>
    exact iff_of_false (BinaryFormat.newLine_notMem_text _ _) not_brokenIn_nil
  | .intPair first second =>
    refine iff_of_false ?_ not_brokenIn_nil
    simp [text, Word.newLine_notMem_text]
  | .returnSite function => exact named function
  | .callSite callee target => simp [text, names, Word.newLine_notMem_text, named]
  | .newVector elements =>
    refine iff_of_false ?_ not_brokenIn_nil
    simp [text, Word.newLine_notMem_text]
  | .newStruct type => exact tables.newLine_mem_showStructOfType
  | .native number => exact newLine_mem_nameOr
  | .variable index => exact newLine_mem_nameOr
  | .string index => exact iff_of_false tables.newLine_notMem_showString not_brokenIn_nil
  | .functionHeader header => exact tables.newLine_mem_showHeader
  | .coroutine number slots =>
    refine iff_of_false ?_ not_brokenIn_nil
    simp [text, Word.newLine_notMem_text]
  | .dispatchHeader function cases arguments =>
    simp [text, names, Word.newLine_notMem_text, named]

end Operands

/-- The names of functions, structs and identifiers. -/
def NameTables.names (tables : NameTables) : List String :=
  tables.functions.toList ++ tables.structs.toList ++ tables.identifiers.toList

/-- The entry that is found in a table is among its entries. -/
theorem mem_of_lookup? {α : Type} {table : Array α} {index : Word} {entry : α}
    (found : lookup? table index = some entry) : entry ∈ table.toList := by
  obtain ⟨-, here⟩ := lookup?_eq_some_iff.mp found
  exact Array.mem_toList_iff.mpr (Array.mem_of_getElem? here)

namespace Operands

variable {tables : NameTables} {natives : Natives}

/-- The names that are shown in operands are those of the tables and of the native functions. -/
theorem names_subset (operands : Operands) :
    operands.names tables natives ⊆ tables.names ++ natives.names.toList := by
  have function {index : Word} {name : String} (found : tables.functionName? index = some name) :
      name ∈ tables.names ++ natives.names.toList := by
    simp only [NameTables.names, List.mem_append, mem_of_lookup? found, true_or]
  have struct {index : Word} {name : String} (found : tables.structName? index = some name) :
      name ∈ tables.names ++ natives.names.toList := by
    simp only [NameTables.names, List.mem_append, mem_of_lookup? found, true_or, or_true]
  have native {number : Word} {name : String} (found : natives.name? number = some name) :
      name ∈ tables.names ++ natives.names.toList := by
    simp only [List.mem_append, mem_of_lookup? found, or_true]
  have identifier {index : Word} {name : String} (found : tables.variableName? index = some name) :
      name ∈ tables.names ++ natives.names.toList := by
    obtain ⟨place, -, found⟩ := Option.bind_eq_some_iff.mp found
    simp only [NameTables.names, List.mem_append, mem_of_lookup? found, true_or, or_true]
  intro name among
  cases operands <;> simp only [names] at among
  case returnSite => exact function (Option.mem_toList.mp among)
  case callSite => exact function (Option.mem_toList.mp among)
  case dispatchHeader => exact function (Option.mem_toList.mp among)
  case newStruct =>
    obtain ⟨_, -, found⟩ := Option.bind_eq_some_iff.mp (Option.mem_toList.mp among)
    exact struct found
  case native => exact native (Option.mem_toList.mp among)
  case «variable» => exact identifier (Option.mem_toList.mp among)
  case functionHeader =>
    rcases List.mem_append.mp among with among | among
    · split at among
      · cases among
      · exact function (Option.mem_toList.mp among)
    · obtain ⟨_, -, among⟩ := List.mem_flatMap.mp among
      exact identifier (Option.mem_toList.mp among)
  all_goals cases among

end Operands

namespace Listing

/-- The offsets and the source lines of the rows of a listing, that of the stop last. -/
def positions (listing : Listing) : List (Nat × Word) :=
  listing.lines.map (fun line => (line.offset, line.line)) ++
    listing.stop.toList.map fun stop => (stop.offset, stop.line)

/-- The text of a listing has one line for each row, which starts with the offset and the source
line of the row, and each line ends in a line feed. -/
def OneLineEach (listing : Listing) : Prop :=
  ∃ lines, (listing.format .text).toList.splitOn '\n' = lines ++ [[]] ∧
    List.Forall₂ (fun position line => (positionText position.1 position.2).toList <+: line)
      listing.positions lines

/-- Each row of a listing starts with its offset and its source line. -/
theorem positions_rows (listing : Listing) :
    List.Forall₂ (fun position line => (positionText position.1 position.2).toList <+: line)
      listing.positions (listing.rows.map String.toList) := by
  have starts (offset : Nat) (line : Word) (behind : String) :
      (positionText offset line).toList <+: (positionText offset line ++ behind).toList := by
    rw [String.toList_append]
    exact List.prefix_append _ _
  rw [positions, rows, List.map_append, List.map_map, List.map_map]
  refine List.rel_append ?_ ?_
  · rw [List.forall₂_map_left_iff, List.forall₂_map_right_iff, List.forall₂_same]
    exact fun line _ => starts line.offset line.line _
  · rw [List.forall₂_map_left_iff, List.forall₂_map_right_iff, List.forall₂_same]
    exact fun stop _ => starts stop.offset stop.line _

/-- The text of the listing of an image has one line for each row exactly if no line feed is in the
operands. -/
theorem Produced.oneLineEach_iff {listing : Listing} (produced : listing.Produced) :
    listing.OneLineEach ↔ ∀ line ∈ listing.lines, '\n' ∉ line.operands.toList := by
  constructor
  · rintro ⟨lines, split, starts⟩
    have rows : listing.positions.length = listing.lines.length + listing.stop.toList.length := by
      rw [positions, List.length_append, List.length_map, List.length_map]
    have length := congrArg List.length split
    rw [Lines.length_splitOn, List.length_append, ← starts.length_eq, rows] at length
    exact produced.count_text_iff.mp (Nat.succ.inj length)
  · intro plain
    refine ⟨listing.rows.map String.toList, ?_, listing.positions_rows⟩
    rw [toList_text, Lines.splitOn_joined (produced.rows_plain_iff.mpr plain)]

end Listing

/-- The opcode that pushes a string. -/
def Opcode.stringPush : Opcode := ⟨4, by rw [size_rows]; decide⟩

namespace Image

variable {image : Image} {natives : Natives} {sourced : 0 < image.lines.size}
  {instructions : List Instruction} {last : Nat} {listing : Listing}

/-- A line feed is in the operands of a line exactly if it is in a name that the instruction at the
offset of the line shows. -/
theorem Follows.newLine_mem_operands_iff
    (follows : image.Follows natives sourced instructions last listing) :
    (∀ line ∈ listing.lines, '\n' ∉ line.operands.toList) ↔
      ∀ line ∈ listing.lines, ∀ instruction,
        Instruction.decode image.code line.offset = .ok instruction →
          ¬ BrokenIn (instruction.operands.names image.toNameTables natives) := by
  have shown : ∀ line ∈ listing.lines, ∀ instruction,
      Instruction.decode image.code line.offset = .ok instruction →
        ('\n' ∈ line.operands.toList ↔
          BrokenIn (instruction.operands.names image.toNameTables natives)) := by
    intro line among instruction decoded
    rw [follows.lines] at among
    obtain ⟨listed, here, rfl⟩ := List.mem_map.mp among
    cases (follows.path.decoded listed here).symm.trans decoded
    exact instruction.operands.newLine_mem_text image.toNameTables natives
  constructor
  · intro plain line among instruction decoded broken
    exact plain line among ((shown line among instruction decoded).mpr broken)
  · intro plain line among inside
    have here := among
    rw [follows.lines] at here
    obtain ⟨instruction, listed, rfl⟩ := List.mem_map.mp here
    have decoded := follows.path.decoded instruction listed
    exact plain _ among instruction decoded ((shown _ among instruction decoded).mp inside)

/-- The sweep of an image that was loaded comes to a listing. Its text has one line for each row,
with the offset and the source line of the row, exactly if no line feed is in the names that the
instructions show. So it has if there is none in the names of functions, structs and identifiers
and of native functions. The texts of strings are of no account. -/
theorem text_oneLineEach (image : Image) (natives : Natives) (bytes : List UInt8)
    (loaded : Image.load bytes = .ok image) :
    ∃ listing, image.sweep? natives = some listing ∧
      (listing.OneLineEach ↔ ∀ line ∈ listing.lines, ∀ instruction,
        Instruction.decode image.code line.offset = .ok instruction →
          ¬ BrokenIn (instruction.operands.names image.toNameTables natives)) ∧
      (¬ BrokenIn (image.toNameTables.names ++ natives.names.toList) → listing.OneLineEach) := by
  obtain ⟨instructions, last, listing, follows⟩ :=
    image.exists_follows natives (sourced_of_load loaded)
  have produced : listing.Produced := produced_of_sweep? follows.sweep?_eq
  have oneLineEach := produced.oneLineEach_iff.trans follows.newLine_mem_operands_iff
  refine ⟨listing, follows.sweep?_eq, oneLineEach, ?plain⟩
  case plain =>
    intro plain
    apply oneLineEach.mpr
    intro line _ instruction _ broken
    obtain ⟨name, shown, inside⟩ := broken
    exact plain ⟨name, instruction.operands.names_subset shown, inside⟩

/-- A program that returns from a function and pushes a string. -/
def naming (function string : String) : Image where
  code := #[42, 0, 0, 4, 0]
  lines := #[⟨0, 1, 0⟩]
  functions := #[function]
  strings := #[string]

/-- The listing of that program. -/
def namingListing (function string : String) : Listing where
  lines := [⟨0, 1, none, "RETURN", function⟩,
    ⟨3, 1, none, "PUSHSTR", Text.Quoted.quote string⟩]

/-- The program is loaded from its document. -/
theorem load_naming (function string : String) :
    Image.load (fileBytes (naming function string).toValue.compact) =
      .ok (naming function string) := by
  have valid : (naming function string).check = .ok () := rfl
  rw [Image.load_fileBytes (Or.inl rfl)]
  simp only [valid]

/-- The program has that listing. -/
theorem sweep?_naming (function string : String) :
    (naming function string).sweep? {} = some (namingListing function string) := by
  have sourced : 0 < (naming function string).lines.size := Nat.one_pos
  have path : Path (naming function string).code 0
      [⟨0, .functionReturn, .returnSite 0, 2⟩, ⟨3, .stringPush, .string 0, 1⟩] 5 := by
    show Path #[42, 0, 0, 4, 0] 0 _ 5
    exact .cons (by decide +kernel) (.cons (by decide +kernel) (.nil 5))
  have follows : (naming function string).Follows {} sourced _ 5 ⟨_, _⟩ := ⟨path, rfl, .complete⟩
  have located (offset : Nat) :
      LineTable.locate (naming function string).lines sourced offset = ⟨0, 1, 0⟩ :=
    LineTable.locate_singleton _ sourced offset
  have named : Opcode.functionReturn.mnemonic = "RETURN" ∧
      Opcode.stringPush.mnemonic = "PUSHSTR" := by
    decide +kernel
  have returned : (Operands.returnSite 0).text (naming function string).toNameTables {} =
      function := rfl
  have pushed : (Operands.string 0).text (naming function string).toNameTables {} =
      Text.Quoted.quote string := rfl
  have unnamed : (naming function string).fileName? 0 = none := rfl
  rw [follows.sweep?_eq, namingListing]
  simp only [List.map_cons, List.map_nil, listedAt, located, listed, Instruction.operandText,
    returned, pushed, unnamed, named]

/-- A string with a line feed is quoted, so each of the two rows has one line. -/
theorem text_oneLineEach_string :
    Image.load (fileBytes (naming "a" "a\nI 9 L 9 POP").toValue.compact) =
        .ok (naming "a" "a\nI 9 L 9 POP") ∧
      (naming "a" "a\nI 9 L 9 POP").sweep? {} = some (namingListing "a" "a\nI 9 L 9 POP") ∧
      (namingListing "a" "a\nI 9 L 9 POP").OneLineEach := by
  have loaded := load_naming "a" "a\nI 9 L 9 POP"
  have swept := sweep?_naming "a" "a\nI 9 L 9 POP"
  obtain ⟨listing, swept', -, plain⟩ := text_oneLineEach _ {} _ loaded
  cases swept.symm.trans swept'
  exact ⟨loaded, swept, plain (by simp [BrokenIn, NameTables.names, naming])⟩

/-- The name of a function with a line feed is not quoted. The same text there makes two lines of
one row, of which the second one looks like a row of its own. -/
theorem not_oneLineEach_function :
    Image.load (fileBytes (naming "a\nI 9 L 9 POP" "a\nI 9 L 9 POP").toValue.compact) =
        .ok (naming "a\nI 9 L 9 POP" "a\nI 9 L 9 POP") ∧
      (naming "a\nI 9 L 9 POP" "a\nI 9 L 9 POP").sweep? {} =
        some (namingListing "a\nI 9 L 9 POP" "a\nI 9 L 9 POP") ∧
      (namingListing "a\nI 9 L 9 POP" "a\nI 9 L 9 POP").format .text =
        "I 0 L 1 RETURN a\nI 9 L 9 POP\nI 3 L 1 PUSHSTR \"a\\nI 9 L 9 POP\"\n" ∧
      ¬ (namingListing "a\nI 9 L 9 POP" "a\nI 9 L 9 POP").OneLineEach := by
  have swept := sweep?_naming "a\nI 9 L 9 POP" "a\nI 9 L 9 POP"
  refine ⟨load_naming _ _, swept, by decide +kernel, ?split⟩
  case split =>
    intro oneLineEach
    have plain := (produced_of_sweep? swept).oneLineEach_iff.mp oneLineEach
    exact plain _ List.mem_cons_self (by decide)

end Image

end Disassembler
