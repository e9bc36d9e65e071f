import Disassembler.Proofs.MachineAgreement
import Mathlib.Data.List.Forall2

/-!
# Headers and the places of their lists

A function header holds three lists, each behind a word that counts it, so where a list lies depends
on the counts before it. `Machine.decode_signature` says what the text of a header is by places of
the stream alone: which word counts each list, where the list lies, and how the tables name the
variables in it. A header has that text exactly if all these words are in the stream. The same is
said of coroutines, whose slots are shown as they are. A machine that moves one cursor over the
lists and writes while it reads gives this text.
-/

namespace Disassembler

/-- The opcode of a coroutine. -/
def Opcode.coroutineStart : Opcode := ⟨46, by rw [size_rows]; decide⟩

/-- Coroutines have their own layout. -/
theorem Opcode.layout_coroutineStart : coroutineStart.layout = .coroutine := by
  decide +kernel

/-- The words of a stream from a place on. -/
def slice (code : Array Word) (place length : Nat) : List Word :=
  (code.extract place (place + length)).toList

/-- Words that are in the stream are as many as are asked for. -/
theorem length_slice {code : Array Word} {place length : Nat}
    (inside : place + length ≤ code.size) : (slice code place length).length = length := by
  rw [slice, Array.length_toList, Array.size_extract]
  omega

/-- The words from a place on are at the places behind it. -/
theorem getElem?_slice {code : Array Word} {place length index : Nat}
    (inside : place + length ≤ code.size) (among : index < length) :
    (slice code place length)[index]? = code[place + index]? := by
  rw [slice, Array.getElem?_toList, Array.getElem?_extract, if_pos (by omega)]

namespace NameTables

variable {tables : NameTables} {index : Word} {text : String}

/-- How a variable is named: it leads to a specialised identifier, and that to the identifier with
the name. If either is missing, the word of the variable stands for it. -/
inductive NamesVariable (tables : NameTables) (index : Word) : String → Prop where
  /-- Both identifiers are there. -/
  | named {identifier : Word} {name : String} :
      lookup? tables.specialised index = some identifier →
        lookup? tables.identifiers identifier = some name → NamesVariable tables index name
  /-- There is no specialised identifier. -/
  | notSpecialised : lookup? tables.specialised index = none →
      NamesVariable tables index ("?" ++ index.text)
  /-- There is no identifier. -/
  | notIdentified {identifier : Word} :
      lookup? tables.specialised index = some identifier →
        lookup? tables.identifiers identifier = none →
          NamesVariable tables index ("?" ++ index.text)

/-- A variable is shown by its name. -/
theorem namesVariable_iff : tables.NamesVariable index text ↔ text = tables.showVariable index := by
  unfold showVariable variableName?
  constructor
  · intro names
    cases names with
    | named specialised identified => rw [specialised, Option.bind_some, identified, nameOr]
    | notSpecialised absent => rw [absent, Option.bind_none, nameOr]
    | notIdentified specialised absent => rw [specialised, Option.bind_some, absent, nameOr]
  · rintro rfl
    cases specialised : lookup? tables.specialised index with
    | none => exact .notSpecialised specialised
    | some identifier =>
      rw [Option.bind_some]
      cases identified : lookup? tables.identifiers identifier with
      | none => exact .notIdentified specialised identified
      | some name => exact .named specialised identified

/-- How a function is named in its header: a negative word stands for no entry, and a word without
an entry for itself. -/
inductive NamesFunction (tables : NameTables) (index : Word) : String → Prop where
  /-- The function has no entry on purpose. -/
  | dummy : index.toInt < 0 → NamesFunction tables index "__dummy"
  /-- The function has an entry. -/
  | named {name : String} : lookup? tables.functions index = some name →
      NamesFunction tables index name
  /-- The entry of the function is missing. -/
  | notNamed : 0 ≤ index.toInt → lookup? tables.functions index = none →
      NamesFunction tables index ("?" ++ index.text)

/-- A header shows the name of its function. -/
theorem namesFunction_iff : tables.NamesFunction index text ↔
    text = if index.toInt < 0 then "__dummy" else tables.showFunction index := by
  unfold showFunction functionName?
  constructor
  · intro names
    cases names with
    | dummy negative => rw [if_pos negative]
    | named found =>
      have nonnegative := (lookup?_eq_some_iff.mp found).1
      rw [if_neg (Int.not_lt.mpr nonnegative), found, nameOr]
    | notNamed nonnegative absent => rw [if_neg (Int.not_lt.mpr nonnegative), absent, nameOr]
  · rintro rfl
    split
    · rename_i negative
      exact .dummy negative
    · rename_i nonnegative
      cases found : lookup? tables.functions index with
      | none => exact .notNamed (Int.not_lt.mp nonnegative) found
      | some name => exact .named found

/-- The names of variables are shown in their order. -/
theorem namesVariables_iff {indices : List Word} {names : List String} :
    List.Forall₂ tables.NamesVariable indices names ↔ names = indices.map tables.showVariable := by
  induction indices generalizing names with
  | nil => exact List.forall₂_nil_left_iff
  | cons index indices ih =>
    rw [List.forall₂_cons_left_iff, List.map_cons]
    constructor
    · rintro ⟨name, rest, names, others, rfl⟩
      rw [namesVariable_iff.mp names, ih.mp others]
    · rintro rfl
      exact ⟨_, _, namesVariable_iff.mpr rfl, ih.mpr rfl, rfl⟩

end NameTables

namespace OperandReader

variable {words : OperandWords} {read after : Nat} {values : List Word}

/-- A list that is read is a slice of the stream. -/
theorem list_eq_ok_slice_iff {length : Nat} :
    list length words read = .ok (values, after) ↔
      words.Holds (read + length) ∧ values = slice words.code (words.place read) length ∧
        after = read + length := by
  have behind : words.place (read + length) = words.place read + length := (Nat.add_assoc ..).symm
  unfold list slice OperandWords.Holds
  rw [behind]
  split
  · rename_i holds
    simp [holds, eq_comm]
  · rename_i missing
    simp [missing]

/-- A counted list that is read is the slice of the stream behind the word that counts it. -/
theorem counted_eq_ok_iff :
    counted words read = .ok (values, after) ↔
      ∃ length, words.word? read = some length ∧ words.Holds (read + 1 + length.count) ∧
        values = slice words.code (words.place (read + 1)) length.count ∧
          after = read + 1 + length.count := by
  constructor
  · intro done
    obtain ⟨length, between, first, done⟩ := bind_eq_ok_iff.mp done
    obtain ⟨counts, rfl⟩ := word_eq_ok_iff.mp first
    exact ⟨length, counts, list_eq_ok_slice_iff.mp done⟩
  · rintro ⟨length, counts, done⟩
    rw [counted, bind_of_ok (word_eq_ok_iff.mpr ⟨counts, rfl⟩)]
    exact list_eq_ok_slice_iff.mpr done

end OperandReader

/-- The single words of a function header are at their places, and all its lists are in the
stream. -/
structure SignatureAt (code : Array Word) (offset : Nat)
    (function parameters results keep owned : Word) : Prop where
  /-- The function is the word behind the opcode. -/
  atFunction : code[offset + 1]? = some function
  /-- The parameters are counted behind the function. -/
  atParameters : code[offset + 2]? = some parameters
  /-- The results are counted behind the parameters. -/
  atResults : code[offset + 3 + parameters.count]? = some results
  /-- The number of values to keep is behind the results. -/
  atKeep : code[offset + 4 + parameters.count + results.count]? = some keep
  /-- The owned variables are counted behind it. -/
  atOwned : code[offset + 5 + parameters.count + results.count]? = some owned
  /-- The owned variables are in the stream. -/
  inside : offset + 6 + parameters.count + results.count + owned.count ≤ code.size

namespace Operands

open OperandReader

variable {code : Array Word} {offset after : Nat}

/-- An operand word that is read is at its place of the stream. -/
theorem word_eq_ok_at {read : Nat} {value : Word} (place : Nat) (same : offset + 1 + read = place) :
    word ⟨code, offset⟩ read = .ok (value, after) ↔
      code[place]? = some value ∧ after = read + 1 := by
  rw [word_eq_ok_iff]
  subst same
  rfl

/-- A counted list that is read is at its place of the stream. -/
theorem counted_eq_ok_at {read : Nat} {values : List Word} (place : Nat)
    (same : offset + 1 + read = place) :
    counted ⟨code, offset⟩ read = .ok (values, after) ↔
      ∃ length, code[place]? = some length ∧ place + 1 + length.count ≤ code.size ∧
        values = slice code (place + 1) length.count ∧ after = read + 1 + length.count := by
  rw [counted_eq_ok_iff]
  subst same
  unfold OperandWords.word? OperandWords.Holds OperandWords.place
  simp only [Nat.add_assoc]

/-- A function header that is read has its words and its lists at their places of the stream. -/
theorem readFunctionHeader_eq_ok_iff {header : FunctionHeader} :
    readFunctionHeader ⟨code, offset⟩ 0 = .ok (header, after) ↔
      ∃ function parameters results keep owned,
        SignatureAt code offset function parameters results keep owned ∧
          header = ⟨function, slice code (offset + 3) parameters.count,
            slice code (offset + 4 + parameters.count) results.count, keep,
            slice code (offset + 6 + parameters.count + results.count) owned.count⟩ ∧
          after = 5 + parameters.count + results.count + owned.count := by
  -- Each list starts right behind the word that counts it.
  have behindResults (first : Nat) : offset + 4 + first = offset + 3 + first + 1 := by omega
  have behindOwned (first second : Nat) :
      offset + 6 + first + second = offset + 5 + first + second + 1 := by omega
  simp only [behindResults, behindOwned]
  unfold readFunctionHeader
  constructor
  · intro done
    obtain ⟨function, _, first, done⟩ := bind_eq_ok_iff.mp done
    obtain ⟨atFunction, rfl⟩ := (word_eq_ok_at (offset + 1) rfl).mp first
    obtain ⟨_, _, first, done⟩ := bind_eq_ok_iff.mp done
    obtain ⟨parameters, atParameters, -, rfl, rfl⟩ :=
      (counted_eq_ok_at (offset + 2) rfl).mp first
    obtain ⟨_, _, first, done⟩ := bind_eq_ok_iff.mp done
    obtain ⟨results, atResults, -, rfl, rfl⟩ :=
      (counted_eq_ok_at (offset + 3 + parameters.count) (by omega)).mp first
    obtain ⟨keep, _, first, done⟩ := bind_eq_ok_iff.mp done
    obtain ⟨atKeep, rfl⟩ :=
      (word_eq_ok_at (offset + 4 + parameters.count + results.count) (by omega)).mp first
    obtain ⟨_, _, first, done⟩ := bind_eq_ok_iff.mp done
    obtain ⟨owned, atOwned, holds, rfl, rfl⟩ :=
      (counted_eq_ok_at (offset + 5 + parameters.count + results.count) (by omega)).mp first
    cases done
    exact ⟨function, parameters, results, keep, owned,
      ⟨atFunction, atParameters, atResults, atKeep, atOwned, by omega⟩, rfl, by omega⟩
  · rintro ⟨function, parameters, results, keep, owned, signature, rfl, rfl⟩
    have inside := signature.inside
    rw [bind_of_ok ((word_eq_ok_at _ rfl).mpr ⟨signature.atFunction, rfl⟩),
      bind_of_ok ((counted_eq_ok_at _ rfl).mpr
        ⟨parameters, signature.atParameters, by omega, rfl, rfl⟩),
      bind_of_ok ((counted_eq_ok_at _ (by omega)).mpr
        ⟨results, signature.atResults, by omega, rfl, rfl⟩),
      bind_of_ok ((word_eq_ok_at _ (by omega)).mpr ⟨signature.atKeep, rfl⟩),
      bind_of_ok ((counted_eq_ok_at _ (by omega)).mpr
        ⟨owned, signature.atOwned, by omega, rfl, rfl⟩), pure_apply]
    congr 2
    omega

/-- A coroutine that is read has its number and its slots at their places of the stream. -/
theorem read_coroutine_eq_ok_iff {operands : Operands} :
    read .coroutine ⟨code, offset⟩ 0 = .ok (operands, after) ↔
      ∃ number slots : Word, code[offset + 1]? = some number ∧ code[offset + 3]? = some slots ∧
        offset + 4 + slots.count ≤ code.size ∧
        operands = .coroutine number (slice code (offset + 4) slots.count) ∧
        after = 3 + slots.count := by
  have sequence : read .coroutine = (do
      let number ← word
      skip 1
      return .coroutine number (← counted)) := rfl
  rw [sequence]
  constructor
  · intro done
    obtain ⟨number, _, first, done⟩ := bind_eq_ok_iff.mp done
    obtain ⟨atNumber, rfl⟩ := (word_eq_ok_at (offset + 1) rfl).mp first
    obtain ⟨_, _, first, done⟩ := bind_eq_ok_iff.mp done
    obtain ⟨-, rfl⟩ := skip_eq_ok_iff.mp first
    obtain ⟨_, _, first, done⟩ := bind_eq_ok_iff.mp done
    obtain ⟨slots, atSlots, holds, rfl, rfl⟩ := (counted_eq_ok_at (offset + 3) rfl).mp first
    cases done
    exact ⟨number, slots, atNumber, atSlots, by omega, rfl, by omega⟩
  · rintro ⟨number, slots, atNumber, atSlots, inside, rfl, rfl⟩
    have skipped : skip 1 ⟨code, offset⟩ (0 + 1) = .ok ((), 0 + 1 + 1) :=
      skip_eq_ok_iff.mpr ⟨OperandWords.holds_iff.mpr (by omega), rfl⟩
    rw [bind_of_ok ((word_eq_ok_at _ rfl).mpr ⟨atNumber, rfl⟩), bind_of_ok skipped,
      bind_of_ok ((counted_eq_ok_at _ rfl).mpr ⟨slots, atSlots, by omega, rfl, rfl⟩), pure_apply]

end Operands

/-- Names with a blank behind each. -/
def spaced (names : List String) : String := String.join (names.map (· ++ " "))

namespace Image

variable {image : Image} {natives : Natives} {offset : Nat} {text : String}

/-- The text of a function header, by places of the stream. -/
def ShowsSignature (image : Image) (offset : Nat) (text : String) : Prop :=
  ∃ function parameters results keep owned name parameterNames resultNames ownedNames,
    SignatureAt image.code offset function parameters results keep owned ∧
    image.NamesFunction function name ∧
    List.Forall₂ image.NamesVariable (slice image.code (offset + 3) parameters.count)
      parameterNames ∧
    List.Forall₂ image.NamesVariable
      (slice image.code (offset + 4 + parameters.count) results.count) resultNames ∧
    List.Forall₂ image.NamesVariable
      (slice image.code (offset + 6 + parameters.count + results.count) owned.count) ownedNames ∧
    text = name ++ "(" ++ spaced parameterNames ++ "=> " ++ spaced resultNames ++
      "[" ++ keep.text ++ "]" ++ spaced ownedNames ++ ")"

/-- The text of a coroutine, by places of the stream. -/
def ShowsSlots (image : Image) (offset : Nat) (text : String) : Prop :=
  ∃ number slots : Word,
    image.code[offset + 1]? = some number ∧ image.code[offset + 3]? = some slots ∧
    offset + 4 + slots.count ≤ image.code.size ∧
    text = number.text ++
      String.join ((slice image.code (offset + 4) slots.count).map fun slot => " v" ++ slot.text)

/-- The variables of a list are shown with a blank behind each. -/
theorem showVariables_eq (tables : NameTables) (indices : List Word) :
    tables.showVariables indices = spaced (indices.map tables.showVariable) := by
  unfold NameTables.showVariables spaced
  rw [List.map_map]
  rfl

/-- A decoded instruction with an opcode has a text exactly if its operands are read with that
text. -/
theorem decode_text_iff {opcode : Opcode} (found : image.code[offset]? = some opcode.word) :
    (∃ instruction, Instruction.decode image.code offset = .ok instruction ∧
        instruction.operandText image.toNameTables natives = text) ↔
      ∃ operands after, Operands.read opcode.layout ⟨image.code, offset⟩ 0 = .ok (operands, after) ∧
        text = operands.text image.toNameTables natives := by
  constructor
  · rintro ⟨instruction, decoded, rfl⟩
    obtain ⟨-, found', read⟩ := Instruction.decode_eq_ok_iff.mp decoded
    obtain rfl := Opcode.word_inj.mp (Option.some.inj (found.symm.trans found'))
    exact ⟨_, _, read, rfl⟩
  · rintro ⟨operands, after, read, rfl⟩
    exact ⟨⟨offset, opcode, operands, after⟩,
      Instruction.decode_eq_ok_iff.mpr ⟨rfl, found, read⟩, rfl⟩

/-- The text of a function header that is read is the one that its places give. -/
theorem read_functionHeader_text_iff :
    (∃ operands after,
        Operands.read .functionHeader ⟨image.code, offset⟩ 0 = .ok (operands, after) ∧
        text = operands.text image.toNameTables natives) ↔ image.ShowsSignature offset text := by
  unfold ShowsSignature
  simp only [NameTables.namesVariables_iff, NameTables.namesFunction_iff]
  constructor
  · rintro ⟨operands, after, done, rfl⟩
    obtain ⟨header, _, signature, made⟩ := OperandReader.bind_eq_ok_iff.mp done
    cases made
    obtain ⟨function, parameters, results, keep, owned, places, rfl, rfl⟩ :=
      Operands.readFunctionHeader_eq_ok_iff.mp signature
    refine ⟨function, parameters, results, keep, owned, _, _, _, _, places, rfl, rfl, rfl, rfl, ?_⟩
    simp only [Operands.text, NameTables.showHeader, showVariables_eq]
  · rintro ⟨function, parameters, results, keep, owned, _, _, _, _, places, rfl, rfl, rfl, rfl, rfl⟩
    have signature := Operands.readFunctionHeader_eq_ok_iff.mpr
      ⟨function, parameters, results, keep, owned, places, rfl, rfl⟩
    refine ⟨_, _, OperandReader.bind_of_ok signature, ?_⟩
    simp only [Operands.text, NameTables.showHeader, showVariables_eq]

/-- The text of a coroutine that is read is the one that its places give. -/
theorem read_coroutine_text_iff :
    (∃ operands after,
        Operands.read .coroutine ⟨image.code, offset⟩ 0 = .ok (operands, after) ∧
        text = operands.text image.toNameTables natives) ↔ image.ShowsSlots offset text := by
  constructor
  · rintro ⟨operands, after, done, rfl⟩
    obtain ⟨number, slots, atNumber, atSlots, inside, rfl, rfl⟩ :=
      Operands.read_coroutine_eq_ok_iff.mp done
    exact ⟨number, slots, atNumber, atSlots, inside, rfl⟩
  · rintro ⟨number, slots, atNumber, atSlots, inside, rfl⟩
    exact ⟨_, _, Operands.read_coroutine_eq_ok_iff.mpr
      ⟨number, slots, atNumber, atSlots, inside, rfl, rfl⟩, rfl⟩

end Image

namespace Machine

/-- Where there is the opcode of a function header, an instruction with a text is decoded exactly if
that is the text of a function header by its places, and the same holds of coroutines. A machine
that moves a cursor over the lists gives the same text. -/
theorem decode_signature (image : Image) (natives : Natives) (offset : Nat) :
    (image.code[offset]? = some Opcode.functionStart.word → ∀ text,
      (∃ instruction, Instruction.decode image.code offset = .ok instruction ∧
        instruction.operandText image.toNameTables natives = text) ↔
      image.ShowsSignature offset text) ∧
    (image.code[offset]? = some Opcode.coroutineStart.word → ∀ text,
      (∃ instruction, Instruction.decode image.code offset = .ok instruction ∧
        instruction.operandText image.toNameTables natives = text) ↔
      image.ShowsSlots offset text) ∧
    (offset + 1 < UInt64.size → Addressable image.code →
      decode image natives offset = some ((Instruction.decode image.code offset).map
        (·.rendered image.toNameTables natives))) := by
  have header : Opcode.functionStart.layout = .functionHeader :=
    ((Opcode.layout_named _).2.2.1).mpr rfl
  refine ⟨?function, ?coroutine, decode_eq image natives⟩
  case function =>
    intro found text
    rw [Image.decode_text_iff found, header]
    exact Image.read_functionHeader_text_iff
  case coroutine =>
    intro found text
    rw [Image.decode_text_iff found, Opcode.layout_coroutineStart]
    exact Image.read_coroutine_text_iff

/-- A function with two parameters, of which the second one has no name, and a coroutine with two
slots. -/
def headed : Image where
  code := #[40, 0, 2, 0, 9, 1, 1, -5, -1, 46, 7, 99, 2, 3, -4]
  functions := #["main"]
  specialised := #[1, 0]
  identifiers := #["r", "x"]

/-- The text of the function has its parameters, its result and no owned variables, and that of the
coroutine its slots. -/
theorem decode_signature_headed :
    headed.code[0]? = some Opcode.functionStart.word ∧
      headed.code[9]? = some Opcode.coroutineStart.word ∧
      0 + 1 < UInt64.size ∧ Addressable headed.code ∧
      headed.ShowsSignature 0 "main(x ?9 => r [-5])" ∧ headed.ShowsSlots 9 "7 v3 v-4" ∧
      (decode headed {} 0).isSome := by
  have function : headed.code[0]? = some Opcode.functionStart.word := by decide +kernel
  have coroutine : headed.code[9]? = some Opcode.coroutineStart.word := by decide +kernel
  have cursor : 0 + 1 < UInt64.size := by decide
  have addressable : Addressable headed.code := by
    unfold Addressable
    decide
  obtain ⟨signature, -, machine⟩ := decode_signature headed {} 0
  obtain ⟨-, slots, -⟩ := decode_signature headed {} 9
  refine ⟨function, coroutine, cursor, addressable, ?_, ?_, ?_⟩
  · refine (signature function _).mp ⟨⟨0, .functionStart,
      .functionHeader ⟨0, [0, 9], [1], -5, []⟩, 8⟩, by decide +kernel, by decide +kernel⟩
  · refine (slots coroutine _).mp ⟨⟨9, .coroutineStart, .coroutine 7 [3, -4], 5⟩,
      by decide +kernel, by decide +kernel⟩
  · rw [machine cursor addressable]
    rfl

end Machine

end Disassembler
