import Disassembler.Proofs.LineSearch
import Disassembler.Proofs.Sweep

/-!
# What listings tell about faults

The text of a fault tells everything about it but the offset of an instruction that is truncated. In
the listing of an image that is the offset of the stop, and no instruction is listed under the short
name of a fault. So nothing is lost where a listing shows its faults by their texts.
-/

namespace Disassembler

namespace Recovery

variable {α β γ : Type}

/-- What one function tells of the entries of a list it tells of the list. -/
theorem map_eq_of_map_eq {first : α → β} {second : α → γ} {entries entries' : List α}
    (tells : ∀ entry ∈ entries, ∀ entry' ∈ entries', first entry = first entry' →
      second entry = second entry')
    (same : entries.map first = entries'.map first) :
    entries.map second = entries'.map second := by
  induction entries generalizing entries' with
  | nil =>
    cases entries' with
    | nil => rfl
    | cons entry' rest' => cases same
  | cons entry rest ih =>
    cases entries' with
    | nil => cases same
    | cons entry' rest' =>
      obtain ⟨head, tail⟩ := List.cons.inj same
      have heads := tells entry List.mem_cons_self entry' List.mem_cons_self head
      have tails := ih (fun entry among entry' among' => tells entry (.tail _ among) entry'
        (.tail _ among')) tail
      rw [List.map_cons, List.map_cons, heads, tails]

/-- What one function tells of an entry, if there is one, another one may tell too. -/
theorem optionMap_eq_of_optionMap_eq {first : α → β} {second : α → γ}
    (tells : ∀ entry entry', first entry = first entry' → second entry = second entry')
    {entry entry' : Option α} (same : entry.map first = entry'.map first) :
    entry.map second = entry'.map second := by
  cases entry with
  | none =>
    cases entry' with
    | none => rfl
    | some entry' => cases same
  | some entry =>
    cases entry' with
    | none => cases same
    | some entry' => exact congrArg some (tells entry entry' (Option.some.inj same))

/-- Entries and perhaps a last one of another kind are told apart if no entry is shown as one of the
other kind. -/
theorem map_append_inj {show' : α → γ} {showLast : β → γ} {entries entries' : List α}
    {last last' : Option β} (apart : ∀ entry ∈ entries, ∀ last, showLast last ≠ show' entry)
    (apart' : ∀ entry ∈ entries', ∀ last, showLast last ≠ show' entry)
    (same : entries.map show' ++ last.toList.map showLast =
      entries'.map show' ++ last'.toList.map showLast) :
    entries.map show' = entries'.map show' ∧ last.map showLast = last'.map showLast := by
  induction entries generalizing entries' with
  | nil =>
    cases entries' with
    | nil =>
      refine ⟨rfl, ?_⟩
      cases last <;> cases last' <;> simp_all
    | cons entry' rest' =>
      cases last with
      | none => cases same
      | some last => exact absurd (List.cons.inj same).1 (apart' entry' List.mem_cons_self last)
  | cons entry rest ih =>
    cases entries' with
    | nil =>
      cases last' with
      | none => cases same
      | some last' =>
        exact absurd (List.cons.inj same).1.symm (apart entry List.mem_cons_self last')
    | cons entry' rest' =>
      obtain ⟨first, others⟩ := List.cons.inj same
      obtain ⟨lines, lasts⟩ := ih (List.forall_mem_cons.mp apart).2
        (List.forall_mem_cons.mp apart').2 others
      rw [List.map_cons, List.map_cons, first, lines]
      exact ⟨rfl, lasts⟩

end Recovery

/-- The decimal text of a number is that of no other number. -/
theorem repr_inj {value value' : Nat} : value.repr = value'.repr ↔ value = value' := by
  constructor
  · intro same
    have digits := congrArg String.toList same
    rw [Nat.toList_repr, Nat.toList_repr] at digits
    rw [← Nat.ofDigitChars_ten_toDigits (n := value), digits, Nat.ofDigitChars_ten_toDigits]
  · rintro rfl
    rfl

/-- There is no minus sign in the decimal text of a number. -/
theorem minus_append_ne_repr (text : String) (value : Nat) : "-" ++ text ≠ value.repr := by
  intro same
  have signs := congrArg String.toList same
  rw [Nat.toList_repr, String.toList_append] at signs
  have among : '-' ∈ Nat.toDigits 10 value := by
    rw [← signs]
    exact List.mem_cons_self
  have digit := Nat.isDigit_of_mem_toDigits (by decide) (by decide) among
  cases digit

/-- The decimal text of an integer is that of no other integer. -/
theorem intRepr_inj {value value' : Int} : value.repr = value'.repr ↔ value = value' := by
  constructor
  · intro same
    cases value with
    | ofNat value =>
      cases value' with
      | ofNat value' => rw [repr_inj.mp same]
      | negSucc value' => exact absurd same.symm (minus_append_ne_repr _ _)
    | negSucc value =>
      cases value' with
      | ofNat value' => exact absurd same (minus_append_ne_repr _ _)
      | negSucc value' =>
        have positive := repr_inj.mp ((String.append_right_inj _).mp same)
        rw [Nat.succ.inj positive]
  · rintro rfl
    rfl

/-- The text of a word is that of no other word. -/
theorem Word.text_inj {word word' : Word} : Word.text word = Word.text word' ↔ word = word' :=
  intRepr_inj.trans Int32.toInt_inj

/-- No opcode has the short name of a fault or the first word of its text as its name. -/
theorem Opcode.mnemonic_notMem (opcode : Opcode) :
    opcode.mnemonic ∉ ["ILLEGAL", "TRUNCATED", "BADCALL", "BAD"] := by
  have each : ∀ row ∈ rows.toList,
      row.mnemonic ∉ ["ILLEGAL", "TRUNCATED", "BADCALL", "BAD"] := by
    decide +kernel
  exact each opcode.row (Array.getElem_mem_toList _)

namespace DecodeFault

/-- A fault without the offset of an instruction that is truncated. -/
def unplaced : DecodeFault → DecodeFault
  | .truncated _ needed => .truncated 0 needed
  | fault => fault

/-- The text of a fault does not tell the offset. -/
theorem message_unplaced (fault : DecodeFault) : fault.unplaced.message = fault.message := by
  cases fault <;> rfl

/-- The short name of a fault does not tell the offset. -/
theorem marker_unplaced (fault : DecodeFault) : fault.unplaced.marker = fault.marker := by
  cases fault <;> rfl

/-- The first letter of the text of a fault. -/
def letter : DecodeFault → Char
  | .illegalOpcode _ => 'I'
  | .truncated _ _ => 'T'
  | .badCallTarget _ => 'B'

/-- The text of a fault starts with its letter. -/
theorem head?_message (fault : DecodeFault) :
    fault.message.toList.head? = some fault.letter := by
  cases fault with
  | illegalOpcode word =>
    show ("ILLEGAL INSTRUCTION: " ++ word.text).toList.head? = _
    simp [letter]
  | truncated offset needed =>
    show ("TRUNCATED INSTRUCTION: needs " ++ toString needed ++ " more word(s)").toList.head? = _
    simp [letter]
  | badCallTarget target =>
    show ("BAD CALL TARGET: " ++ target.text).toList.head? = _
    simp [letter]

/-- The text of a fault tells all the rest. -/
theorem unplaced_of_message {fault fault' : DecodeFault} (same : fault.message = fault'.message) :
    fault.unplaced = fault'.unplaced := by
  have letters : fault.letter = fault'.letter := by
    have heads := congrArg (fun text => text.toList.head?) same
    simp only [head?_message] at heads
    exact Option.some.inj heads
  cases fault with
  | illegalOpcode word =>
    cases fault' with
    | illegalOpcode word' =>
      have text : Word.text word = Word.text word' := (String.append_right_inj _).mp same
      rw [Word.text_inj.mp text]
    | truncated _ _ | badCallTarget _ => simp [letter] at letters
  | truncated offset needed =>
    cases fault' with
    | truncated offset' needed' =>
      have text : needed.repr = needed'.repr :=
        (String.append_right_inj _).mp ((String.append_left_inj _).mp same)
      rw [unplaced, unplaced, repr_inj.mp text]
    | illegalOpcode _ | badCallTarget _ => simp [letter] at letters
  | badCallTarget target =>
    cases fault' with
    | badCallTarget target' =>
      have text : Word.text target = Word.text target' := (String.append_right_inj _).mp same
      rw [Word.text_inj.mp text]
    | illegalOpcode _ | truncated _ _ => simp [letter] at letters

/-- The short name of a fault is no name of an opcode. -/
theorem marker_ne_mnemonic (fault : DecodeFault) (opcode : Opcode) :
    fault.marker ≠ opcode.mnemonic := by
  have known : fault.marker ∈ ["ILLEGAL", "TRUNCATED", "BADCALL", "BAD"] := by
    cases fault <;> simp [marker]
  intro same
  rw [same] at known
  exact opcode.mnemonic_notMem known

end DecodeFault

namespace Stop

/-- A stop without the offset of an instruction that is truncated, besides its own one. -/
def unplaced (stop : Stop) : Stop := { stop with fault := stop.fault.unplaced }

/-- An instruction that is truncated is at the offset of the stop. -/
def Placed (stop : Stop) : Prop :=
  ∀ offset needed, stop.fault = .truncated offset needed → offset = stop.offset

/-- Where truncated instructions are at the offset of their stop, that need not be told again. -/
theorem eq_of_unplaced {stop stop' : Stop} (placed : stop.Placed) (placed' : stop'.Placed)
    (same : stop.unplaced = stop'.unplaced) : stop = stop' := by
  obtain ⟨offset, line, file, fault⟩ := stop
  obtain ⟨offset', line', file', fault'⟩ := stop'
  simp only [unplaced, Stop.mk.injEq] at same ⊢
  obtain ⟨rfl, rfl, rfl, same⟩ := same
  refine ⟨rfl, rfl, rfl, ?_⟩
  cases fault with
  | illegalOpcode word => cases fault' <;> simp_all [DecodeFault.unplaced]
  | badCallTarget target => cases fault' <;> simp_all [DecodeFault.unplaced]
  | truncated start needed =>
    cases fault' with
    | truncated start' needed' =>
      cases same
      rw [placed start needed rfl, placed' start' needed rfl]
    | illegalOpcode _ | badCallTarget _ => cases same

end Stop

namespace Listing

/-- A listing without the offset of an instruction that is truncated, besides that of the stop. -/
def unplaced (listing : Listing) : Listing :=
  { listing with stop := listing.stop.map Stop.unplaced }

/-- What holds of every listing of an image. -/
structure Produced (listing : Listing) : Prop where
  /-- Each line has the name of an opcode. -/
  named : ∀ line ∈ listing.lines, ∃ opcode : Opcode, line.mnemonic = opcode.mnemonic
  /-- An instruction that is truncated is at the offset of the stop. -/
  placed : ∀ stop, listing.stop = some stop → stop.Placed

/-- Listings of images that differ in nothing but such an offset are equal. -/
theorem Produced.eq_of_unplaced {listing listing' : Listing} (produced : listing.Produced)
    (produced' : listing'.Produced) (same : listing.unplaced = listing'.unplaced) :
    listing = listing' := by
  obtain ⟨lines, stop⟩ := listing
  obtain ⟨lines', stop'⟩ := listing'
  simp only [unplaced, Listing.mk.injEq] at same ⊢
  obtain ⟨lines, stops⟩ := same
  refine ⟨lines, ?_⟩
  cases stop with
  | none =>
    cases stop' with
    | none => rfl
    | some stop' => cases stops
  | some stop =>
    cases stop' with
    | none => cases stops
    | some stop' =>
      exact congrArg some (Stop.eq_of_unplaced (produced.placed stop rfl)
        (produced'.placed stop' rfl) (Option.some.inj stops))

end Listing

/-- The fault at an offset that is no other fault is that of the instruction there. -/
theorem Instruction.offset_of_truncated {code : Array Word} {offset offset' needed : Nat}
    (failed : decode code offset = .error (.truncated offset' needed)) : offset' = offset := by
  obtain ⟨_, other⟩ | ⟨_, other⟩ | ⟨_, -, same⟩ := (outcomes code offset).fault _ failed
  · cases other
  · cases other
  · cases same
    rfl

/-- The listing of an image is produced. -/
theorem Image.produced_of_sweep? {image : Image} {natives : Natives} {listing : Listing}
    (swept : image.sweep? natives = some listing) : listing.Produced := by
  obtain ⟨sourced, instructions, last, follows⟩ | ⟨-, rfl⟩ := exists_follows_of_sweep? swept
  · constructor
    · intro line among
      rw [follows.lines] at among
      obtain ⟨instruction, -, rfl⟩ := List.mem_map.mp among
      exact ⟨instruction.opcode, rfl⟩
    · intro stop stopped offset needed truncated
      have ends := follows.stop
      rw [stopped] at ends
      cases ends with
      | stopped inside failed =>
        cases truncated
        exact Instruction.offset_of_truncated failed
  · exact ⟨List.forall_mem_nil _, fun _ none => nomatch none⟩

namespace Image

/-- An image that holds nothing but its stream, one source line and perhaps files. -/
def bare (code : Array Word) (files : Array String) : Image where
  code := code
  lines := #[⟨0, 1, 0⟩]
  files := files

/-- Such an image has a listing without lines if its first instruction cannot be decoded. -/
theorem sweep?_bare (natives : Natives) {code : Array Word} {fault : DecodeFault}
    (inside : 0 < code.size) (failed : Instruction.decode code 0 = .error fault)
    (files : Array String) :
    (bare code files).sweep? natives = some { stop := some ⟨0, 1, files[0]?, fault⟩ } := by
  have sourced : 0 < (bare code files).lines.size := Nat.one_pos
  have follows : (bare code files).Follows natives sourced [] 0 ⟨_, _⟩ :=
    ⟨.nil 0, rfl, .stopped inside failed⟩
  have located : LineTable.locate (bare code files).lines sourced 0 = ⟨0, 1, 0⟩ :=
    LineTable.locate_singleton _ sourced 0
  rw [follows.sweep?_eq, stopAt, located]
  rfl

end Image

end Disassembler
