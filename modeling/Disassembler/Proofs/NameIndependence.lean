import Disassembler.Proofs.Machine
import Disassembler.Proofs.Tiling

/-!
# Names do not decide boundaries

A machine looks names up while it moves over the stream. Two machines that read the same stream with
different tables stay in step all the same: at every cursor both report the same fault, or both come
to the same cursor, whatever names they found. So two images with the same stream are listed with
the same offsets, mnemonics and faults. Each column of a listing depends on its own tables only.
-/

namespace Disassembler

namespace Machine

namespace CursorReader

variable {α β γ δ : Type}

/-- Two machines have come out in step: neither has an exact result, both report one fault, or both
have values that belong together, with the same cursor. -/
inductive InStep (together : α → β → Prop) :
    Option (Except DecodeFault (α × Nat)) → Option (Except DecodeFault (β × Nat)) → Prop where
  /-- An operation on cursors has no exact result in either machine. -/
  | inexact : InStep together none none
  /-- Both machines report the same fault. -/
  | fault (fault : DecodeFault) : InStep together (some (.error fault)) (some (.error fault))
  /-- Both machines go on from the same cursor. -/
  | done {value : α} {other : β} (cursor : Nat) : together value other →
      InStep together (some (.ok (value, cursor))) (some (.ok (other, cursor)))

/-- Machines that stay in step wherever they start. -/
def Alike (together : α → β → Prop) (first : CursorReader α) (second : CursorReader β) : Prop :=
  ∀ words cursor, InStep together (first words cursor) (second words cursor)

/-- Texts that stand at the same place, whatever they say. -/
def AnyTexts (_ _ : String) : Prop := True

/-- Each machine stays in step with itself. -/
theorem alike_self (reader : CursorReader α) : Alike Eq reader reader := by
  intro words cursor
  cases reader words cursor with
  | none => exact .inexact
  | some outcome =>
    cases outcome with
    | error fault => exact .fault fault
    | ok result => exact .done result.2 rfl

/-- Machines that read nothing stay in step. -/
theorem alike_pure {together : α → β → Prop} {value : α} {other : β} (same : together value other) :
    Alike together (Pure.pure value : CursorReader α) (Pure.pure other : CursorReader β) :=
  fun _ cursor => .done cursor same

/-- Sequences stay in step if their parts do. -/
theorem Alike.bind {together : α → β → Prop} {together' : γ → δ → Prop} {first : CursorReader α}
    {second : CursorReader β} {next : α → CursorReader γ} {next' : β → CursorReader δ}
    (head : Alike together first second)
    (tail : ∀ value other, together value other → Alike together' (next value) (next' other)) :
    Alike together' (first >>= next) (second >>= next') := by
  intro words cursor
  have step := head words cursor
  rw [bind_apply, bind_apply]
  generalize first words cursor = one at step
  generalize second words cursor = other at step
  cases step with
  | inexact => exact .inexact
  | fault fault => exact .fault fault
  | done after same => exact tail _ _ same words after

/-- Machines that begin with the same part stay in step if they do behind it. -/
theorem Alike.after {together : γ → δ → Prop} (reader : CursorReader α)
    {next : α → CursorReader γ} {next' : α → CursorReader δ}
    (tail : ∀ value, Alike together (next value) (next' value)) :
    Alike together (reader >>= next) (reader >>= next') := by
  apply (alike_self reader).bind
  rintro value _ rfl
  exact tail value

/-- Lists of the same length are passed in step, whatever is written for their words. -/
theorem alike_texts (text text' : Word → String) (count : Nat) (sofar sofar' : String) :
    Alike AnyTexts (texts text count sofar) (texts text' count sofar') := by
  induction count generalizing sofar sofar' with
  | zero => exact alike_pure trivial
  | succ count ih => exact Alike.after word fun _ => ih _ _

/-- A list is passed in step before parts that stay in step whatever is written so far. -/
theorem Alike.after_texts {text text' : Word → String} {count : Nat} {sofar sofar' : String}
    {next next' : String → CursorReader String}
    (tail : ∀ written written', Alike AnyTexts (next written) (next' written')) :
    Alike AnyTexts (texts text count sofar >>= next) (texts text' count sofar' >>= next') :=
  (alike_texts text text' count sofar sofar').bind fun written written' _ => tail written written'

/-- Function headers are passed in step under any two sets of tables. -/
theorem alike_header (tables tables' : NameTables) :
    Alike AnyTexts (header tables) (header tables') := by
  apply Alike.after word
  intro function
  apply Alike.after word
  intro parameters
  apply Alike.after_texts
  intro written written'
  apply Alike.after word
  intro results
  apply Alike.after_texts
  intro written written'
  apply Alike.after word
  intro keep
  apply Alike.after word
  intro owned
  apply Alike.after_texts
  intro written written'
  exact alike_pure trivial

/-- The operands of each layout are passed in step under any two sets of names. -/
theorem alike_operands (tables tables' : NameTables) (natives natives' : Natives)
    (layout : Layout) :
    Alike AnyTexts (operands tables natives layout) (operands tables' natives' layout) := by
  have one {text text' : Word → String} :
      Alike AnyTexts (do return text (← word)) (do return text' (← word)) :=
    Alike.after word fun _ => alike_pure trivial
  have two {text text' : Word → Word → String} :
      Alike AnyTexts (do return text (← word) (← word)) (do return text' (← word) (← word)) :=
    Alike.after word fun _ => Alike.after word fun _ => alike_pure trivial
  match layout with
  | .none => exact alike_pure trivial
  | .int | .float32 | .newStruct | .native | .variable | .string => exact one
  | .int64 | .float64 | .intPair => exact two
  | .returnSite =>
    apply Alike.after word
    intro function
    exact Alike.after (skip 1) fun _ => alike_pure trivial
  | .callSite => exact Alike.after callee fun _ => alike_pure trivial
  | .multiCallSite =>
    apply Alike.after callee
    rintro ⟨callee, target⟩
    exact Alike.after (skip _) fun _ => alike_pure trivial
  | .newVector => exact Alike.after (skip 1) fun _ => one
  | .functionHeader => exact alike_header tables tables'
  | .coroutine =>
    apply Alike.after word
    intro number
    apply Alike.after (skip 1)
    intro _
    exact Alike.after word fun slots => alike_texts _ _ _ _ _
  | .dispatchHeader =>
    apply Alike.after word
    intro function
    apply Alike.after word
    intro cases
    apply Alike.after word
    intro arguments
    apply Alike.after
    intro columns
    apply Alike.after
    intro size
    exact Alike.after (skip size) fun _ => alike_pure trivial

end CursorReader

/-- Whole instructions are passed in step, and have the same opcode. -/
theorem alike_instruction (tables tables' : NameTables) (natives natives' : Natives) :
    CursorReader.Alike (fun one other => one.1 = other.1) (instruction tables natives)
      (instruction tables' natives') := by
  apply CursorReader.Alike.after CursorReader.word
  intro first
  apply CursorReader.Alike.after
  intro known
  cases known with
  | none =>
    intro words cursor
    exact .fault (.illegalOpcode first)
  | some opcode =>
    apply (CursorReader.alike_operands tables tables' natives natives' opcode.layout).bind
    intro written written' _
    exact CursorReader.alike_pure rfl

/-- The outcome of decoding without the text of the operands: the fault, or the opcode and the
offset of the next instruction. -/
def boundary (image : Image) (natives : Natives) (offset : Nat) :
    Option (Except DecodeFault (Opcode × Nat)) :=
  (decode image natives offset).map fun outcome =>
    outcome.map fun instruction => (instruction.opcode, instruction.next)

/-- The same stream has the same boundaries under all tables. -/
theorem boundary_eq {first second : Image} (natives natives' : Natives)
    (sameCode : first.code = second.code) (offset : Nat) :
    boundary first natives offset = boundary second natives' offset := by
  have step := alike_instruction first.toNameTables second.toNameTables natives natives'
    ⟨first.code, offset⟩ offset
  unfold boundary decode
  rw [← sameCode]
  generalize instruction first.toNameTables natives ⟨first.code, offset⟩ offset = one at step
  generalize instruction second.toNameTables natives' ⟨first.code, offset⟩ offset = other at step
  cases step with
  | inexact => rfl
  | fault fault => rfl
  | @done value other cursor same =>
    obtain ⟨opcode, text⟩ := value
    obtain ⟨opcode', text'⟩ := other
    cases same
    rfl

end Machine

namespace Listing

variable (listing : Listing)

/-- The offsets and mnemonics of the lines, and the offset and fault of the stop. -/
def boundaries : List (Nat × String) × Option (Nat × DecodeFault) :=
  (listing.lines.map fun line => (line.offset, line.mnemonic),
    listing.stop.map fun stop => (stop.offset, stop.fault))

/-- The texts of the operands. -/
def operandColumn : List String := listing.lines.map Line.operands

/-- The source lines, also that of the stop. -/
def lineColumn : List Word × Option Word :=
  (listing.lines.map Line.line, listing.stop.map Stop.line)

/-- The source files, also that of the stop. -/
def fileColumn : List (Option String) × Option (Option String) :=
  (listing.lines.map Line.file, listing.stop.map Stop.file)

end Listing

namespace Image

variable {image second : Image} {natives natives' : Natives} {sourced : 0 < image.lines.size}
  {instructions : List Instruction} {last : Nat} {listing : Listing}

/-- The stop of a sweep is that of its fault at the end of its path. -/
theorem Follows.stop_eq (follows : image.Follows natives sourced instructions last listing) :
    listing.stop = listing.stop.map fun stop => image.stopAt sourced last stop.fault := by
  cases stopped : listing.stop with
  | none => rfl
  | some stop =>
    have ends := follows.stop
    rw [stopped] at ends
    exact congrArg some ends.stop_eq.1

/-- An image with the same stream follows the same path, and stops with the same fault. -/
theorem Follows.retabled (follows : image.Follows natives sourced instructions last listing)
    (sameCode : image.code = second.code) (natives' : Natives)
    (sourced' : 0 < second.lines.size) :
    second.Follows natives' sourced' instructions last
      { lines := instructions.map (second.listedAt natives' sourced')
        stop := listing.stop.map fun stop => second.stopAt sourced' last stop.fault } where
  path := sameCode ▸ follows.path
  lines := rfl
  stop := by
    have ends := follows.stop
    generalize listing.stop = stop at ends
    cases ends with
    | complete =>
      rw [sameCode]
      exact .complete
    | stopped inside failed =>
      rw [sameCode] at inside failed
      exact .stopped inside failed

/-- The boundaries of a listing are those of the path that it follows. -/
theorem Follows.boundaries_eq (follows : image.Follows natives sourced instructions last listing) :
    listing.boundaries =
      (instructions.map fun instruction => (instruction.offset, instruction.opcode.mnemonic),
        listing.stop.map fun stop => (last, stop.fault)) := by
  unfold Listing.boundaries
  rw [follows.lines, follows.stop_eq, List.map_map, Option.map_map, Option.map_map]
  rfl

/-- The operand column of a listing has the texts of the operands on its path. -/
theorem Follows.operandColumn_eq
    (follows : image.Follows natives sourced instructions last listing) :
    listing.operandColumn =
      instructions.map (Instruction.operandText image.toNameTables natives) := by
  unfold Listing.operandColumn
  rw [follows.lines, List.map_map]
  rfl

/-- The line column of a listing has the source lines on its path. -/
theorem Follows.lineColumn_eq (follows : image.Follows natives sourced instructions last listing) :
    listing.lineColumn =
      (instructions.map fun instruction =>
          (LineTable.locate image.lines sourced instruction.offset).line,
        listing.stop.map fun _ => (LineTable.locate image.lines sourced last).line) := by
  unfold Listing.lineColumn
  rw [follows.lines, follows.stop_eq, List.map_map, Option.map_map, Option.map_map]
  rfl

/-- The file column of a listing has the source files on its path. -/
theorem Follows.fileColumn_eq (follows : image.Follows natives sourced instructions last listing) :
    listing.fileColumn =
      (instructions.map fun instruction =>
          image.fileName? (LineTable.locate image.lines sourced instruction.offset).file,
        listing.stop.map fun _ =>
          image.fileName? (LineTable.locate image.lines sourced last).file) := by
  unfold Listing.fileColumn
  rw [follows.lines, follows.stop_eq, List.map_map, Option.map_map, Option.map_map]
  rfl

/-- Listings of one stream under the same names have the same operand column. -/
theorem operandColumn_eq {other : Listing} (sameCode : image.code = second.code)
    (sameNames : image.toNameTables = second.toNameTables)
    (swept : image.sweep? natives = some listing) (swept' : second.sweep? natives = some other) :
    listing.operandColumn = other.operandColumn := by
  obtain ⟨sourced, instructions, last, follows⟩ | ⟨empty, rfl⟩ := exists_follows_of_sweep? swept
  · obtain ⟨sourced', _, _, follows'⟩ | ⟨empty, rfl⟩ := exists_follows_of_sweep? swept'
    · have retabled := follows.retabled sameCode natives sourced'
      have same := swept'.symm.trans retabled.sweep?_eq
      cases same
      rw [follows.operandColumn_eq, retabled.operandColumn_eq, sameNames]
    · rw [sweep?_of_empty natives (sameCode.trans empty)] at swept
      cases swept
      rfl
  · rw [sweep?_of_empty natives (sameCode.symm.trans empty)] at swept'
    cases swept'
    rfl

/-- Two images with the same stream and the same source lines show the same of their listings, if
they do along every path. Without source lines both have the empty listing, or none. -/
theorem map_sweep?_eq {γ : Type} {column : Listing → γ} (sameCode : image.code = second.code)
    (sameLines : image.lines = second.lines)
    (along : ∀ (sourced : 0 < image.lines.size) (sourced' : 0 < second.lines.size)
      {instructions last listing listing'},
        image.Follows natives sourced instructions last listing →
        second.Follows natives' sourced' instructions last listing' →
        listing'.stop.map Stop.fault = listing.stop.map Stop.fault →
          column listing = column listing') :
    (image.sweep? natives).map column = (second.sweep? natives').map column := by
  by_cases sourced : 0 < image.lines.size
  · have sourced' : 0 < second.lines.size := sameLines ▸ sourced
    obtain ⟨instructions, last, listing, follows⟩ := image.exists_follows natives sourced
    have other := follows.retabled sameCode natives' sourced'
    have same := along sourced sourced' follows other (by rw [Option.map_map]; rfl)
    rw [follows.sweep?_eq, other.sweep?_eq]
    exact congrArg some same
  · have sourced' : ¬ 0 < second.lines.size := sameLines ▸ sourced
    unfold sweep?
    rw [dif_neg sourced, dif_neg sourced', sameCode]

/-- What a stop shows besides its fault is the same for stops with the same faults. -/
theorem map_const_of_map_fault {γ : Type} {value : γ} {one other : Option Stop}
    (same : other.map Stop.fault = one.map Stop.fault) :
    one.map (fun _ => value) = other.map fun _ => value := by
  cases one <;> cases other <;> simp at same ⊢

/-- The tables of names never decide where an instruction starts or ends, or whether there is one.
Images with the same stream have the same outcome of decoding at every cursor, up to the texts of
the operands, and their sweeps have the same boundaries. The texts of the operands depend on the
stream and the names alone, the line column on the stream and the source lines alone, and the file
column on these and the files alone. -/
theorem sweep?_independent (first second : Image) (natives natives' : Natives)
    (sameCode : first.code = second.code) :
    (∀ offset, Machine.boundary first natives offset = Machine.boundary second natives' offset) ∧
      (0 < first.lines.size → 0 < second.lines.size →
        ∃ one other, first.sweep? natives = some one ∧ second.sweep? natives' = some other ∧
          one.boundaries = other.boundaries) ∧
      (first.toNameTables = second.toNameTables → natives = natives' →
        (∀ offset, Machine.decode first natives offset = Machine.decode second natives' offset) ∧
        ∀ one other, first.sweep? natives = some one → second.sweep? natives' = some other →
          one.operandColumn = other.operandColumn) ∧
      (first.lines = second.lines →
        (first.sweep? natives).map Listing.lineColumn =
            (second.sweep? natives').map Listing.lineColumn ∧
        (first.files = second.files →
          (first.sweep? natives).map Listing.fileColumn =
            (second.sweep? natives').map Listing.fileColumn)) := by
  refine ⟨Machine.boundary_eq natives natives' sameCode, ?_, ?_, ?_⟩
  · intro sourced sourced'
    obtain ⟨instructions, last, listing, follows⟩ := first.exists_follows natives sourced
    have other := follows.retabled sameCode natives' sourced'
    refine ⟨_, _, follows.sweep?_eq, other.sweep?_eq, ?_⟩
    rw [follows.boundaries_eq, other.boundaries_eq, Option.map_map]
    rfl
  · rintro sameNames rfl
    constructor
    · intro offset
      unfold Machine.decode
      rw [sameNames, sameCode]
    · intro one other swept swept'
      exact operandColumn_eq sameCode sameNames swept swept'
  · intro sameLines
    constructor
    · apply map_sweep?_eq sameCode sameLines
      intro sourced sourced' instructions last listing listing' follows other stops
      rw [follows.lineColumn_eq, other.lineColumn_eq, map_const_of_map_fault stops]
      simp only [sameLines]
    · intro sameFiles
      apply map_sweep?_eq sameCode sameLines
      intro sourced sourced' instructions last listing listing' follows other stops
      rw [follows.fileColumn_eq, other.fileColumn_eq, map_const_of_map_fault stops]
      unfold fileName?
      simp only [sameLines, sameFiles]

/-- A function with one parameter, a call of it, and a call of a native function without its number.
All of the names are there. -/
def named : Image where
  code := #[40, 0, 1, 0, 0, 0, 0, 36, 0, 16]
  specialised := #[0]
  identifiers := #["x"]
  functions := #["main"]
  lines := #[⟨0, 1, 0⟩, ⟨7, 2, 0⟩]
  files := #["a"]

/-- The same stream without names, where the parameter refers to an identifier before the table. -/
def unnamed : Image := { named with specialised := #[-1], identifiers := #[], functions := #[] }

/-- The same stream and names with other source lines, and without files. -/
def resourced : Image := { named with lines := #[⟨0, 5, -3⟩], files := #[] }

/-- Without its names the stream keeps its boundaries, source lines and files, and with other source
lines it keeps the texts of its operands. -/
theorem sweep?_independent_named :
    named.code = unnamed.code ∧ 0 < named.lines.size ∧ 0 < unnamed.lines.size ∧
      named.lines = unnamed.lines ∧ named.files = unnamed.files ∧
      named.toNameTables = resourced.toNameTables ∧
      (∃ one other, named.sweep? {} = some one ∧ unnamed.sweep? ⟨#["print"]⟩ = some other ∧
        one.boundaries = other.boundaries) ∧
      (named.sweep? {}).map Listing.fileColumn =
        (unnamed.sweep? ⟨#["print"]⟩).map Listing.fileColumn ∧
      ∀ one other, named.sweep? {} = some one → resourced.sweep? {} = some other →
        one.operandColumn = other.operandColumn := by
  have sourced : 0 < named.lines.size := by decide
  have sourced' : 0 < unnamed.lines.size := by decide
  obtain ⟨-, boundaries, -, columns⟩ := sweep?_independent named unnamed {} ⟨#["print"]⟩ rfl
  obtain ⟨-, -, operands, -⟩ := sweep?_independent named resourced {} {} rfl
  exact ⟨rfl, sourced, sourced', rfl, rfl, rfl, boundaries sourced sourced',
    (columns rfl).2 rfl, (operands rfl rfl).2⟩

end Image

end Disassembler
