import Disassembler.Proofs.Locality
import Disassembler.Proofs.Signatures

/-!
# Calls agree with headers

The header of a function is read in two ways: as an instruction of its own, from left to right, and
by the calls of the function, each of which picks single words out of it. Where both succeed they
agree. A call of a header shows the name and the number of arguments that the header shows, and is
followed by as many types as the header has parameters or arguments, wherever the header lies.
-/

namespace Disassembler

namespace Operands

open OperandReader

variable {words : OperandWords}

/-- What the operands of a header with several cases hold: the function, the number of the cases and
that of the arguments. -/
theorem dispatchHeader_of_read {operands : Operands} {after : Nat}
    (done : read .dispatchHeader words 0 = .ok (operands, after)) :
    ∃ function cases arguments, operands = .dispatchHeader function cases arguments ∧
      words.word? 0 = some function ∧ words.word? 1 = some cases ∧
      words.word? 2 = some arguments := by
  obtain ⟨function, _, first, rest⟩ := bind_eq_ok_iff.mp done
  obtain ⟨atFunction, rfl⟩ := word_eq_ok_iff.mp first
  obtain ⟨cases, _, second, rest⟩ := bind_eq_ok_iff.mp rest
  obtain ⟨atCases, rfl⟩ := word_eq_ok_iff.mp second
  obtain ⟨arguments, _, third, rest⟩ := bind_eq_ok_iff.mp rest
  obtain ⟨atArguments, rfl⟩ := word_eq_ok_iff.mp third
  obtain ⟨_, _, -, made⟩ := bind_eq_ok_iff.mp rest
  cases made
  exact ⟨function, cases, arguments, rfl, atFunction, atCases, atArguments⟩

end Operands

namespace Instruction

variable {code : Array Word} {offset : Nat} {target : Word} {callee : Callee}

/-- A call without types has two words. -/
theorem decode_call (called : CallAt code offset target)
    (opcode : code[offset]? = some Opcode.call.word)
    (found : Callee.find? code target = some callee) :
    decode code offset = .ok ⟨offset, .call, .callSite callee target, 1⟩ := by
  refine decode_eq_ok_iff.mpr ⟨rfl, opcode, ?_⟩
  have layout : Opcode.call.layout = .callSite := ((Opcode.layout_named _).1).mpr rfl
  show Operands.read Opcode.call.layout ⟨code, offset⟩ 0 = _
  rw [layout]
  refine Operands.read_callSite_eq_ok_iff.mpr ⟨callee, target, rfl, ?_⟩
  exact Operands.readCallee_eq_ok_iff.mpr ⟨called.target, found, rfl⟩

/-- A call with types has two words and a word for each argument of its callee. It lacks the types
that are not in the stream. -/
theorem decode_multiCall (called : CallAt code offset target)
    (opcode : code[offset]? = some Opcode.multiCall.word)
    (found : Callee.find? code target = some callee) :
    decode code offset =
      if offset + 2 + callee.arguments.count ≤ code.size then
        .ok ⟨offset, .multiCall, .callSite callee target, 1 + callee.arguments.count⟩
      else .error (.truncated offset (offset + 2 + callee.arguments.count - code.size)) := by
  have layout : Opcode.multiCall.layout = .multiCallSite := ((Opcode.layout_named _).2.1).mpr rfl
  have read : Operands.readCallee ⟨code, offset⟩ 0 = .ok ((callee, target), 1) :=
    Operands.readCallee_eq_ok_iff.mpr ⟨called.target, found, rfl⟩
  have place : OperandWords.place ⟨code, offset⟩ (1 + callee.arguments.count) =
      offset + 2 + callee.arguments.count := by
    show offset + 1 + (1 + callee.arguments.count) = _
    omega
  split
  · rename_i fits
    refine decode_eq_ok_iff.mpr ⟨rfl, opcode, ?_⟩
    show Operands.read Opcode.multiCall.layout ⟨code, offset⟩ 0 = _
    rw [layout]
    refine Operands.read_multiCallSite_eq_ok_iff.mpr ⟨callee, target, 1, rfl, read, ?_⟩
    exact OperandReader.skip_eq_ok_iff.mpr ⟨OperandWords.holds_iff.mpr (by omega), rfl⟩
  · rename_i missing
    apply decode_of_operands_fault opcode
    rw [layout]
    have failed : OperandReader.skip callee.arguments.count ⟨code, offset⟩ 1 =
        .error (.truncated offset (offset + 2 + callee.arguments.count - code.size)) := by
      unfold OperandReader.skip OperandWords.truncatedBefore
      rw [place, if_neg missing]
    show (Operands.readCallee >>= _) ⟨code, offset⟩ 0 = _
    rw [OperandReader.bind_of_ok read]
    exact OperandReader.bind_of_error failed

end Instruction

namespace Machine

variable {image : Image} {natives : Natives} {place : Nat} {header : RenderedInstruction}
  {callee : Callee} {name : String}

/-- The header of a function is shown: its name, between a bracket and an arrow its parameters, as
many as the number of arguments behind the function says, and then the rest of the header. -/
structure ShowsFunction (image : Image) (place : Nat) (header : RenderedInstruction)
    (callee : Callee) (name : String) (parameters : List Word) : Prop where
  /-- The opcode starts a function. -/
  opcode : header.opcode = .functionStart
  /-- The function is the first word behind the opcode. -/
  function : image.code[place + 1]? = some callee.function
  /-- The number of arguments is the second word. -/
  arguments : image.code[place + 2]? = some callee.arguments
  /-- There are as many parameters, and none for a negative number. -/
  counted : parameters.length = callee.arguments.count
  /-- The parameters are the words behind it. -/
  listed : ∀ index < parameters.length,
    parameters[index]? = image.code[place + 3 + index]?
  /-- The text has the name, the parameters and, each at its place, the results, the number of
  values to keep and the owned variables. -/
  text : ∃ results keep owned,
    SignatureAt image.code place callee.function callee.arguments results keep owned ∧
    header.operands = name ++ "(" ++ image.showVariables parameters ++ "=> " ++
      image.showVariables (slice image.code (place + 4 + callee.arguments.count) results.count) ++
      "[" ++ keep.text ++ "]" ++
      image.showVariables (slice image.code
        (place + 6 + callee.arguments.count + results.count) owned.count) ++ ")"

/-- The header of a function with several cases is shown: its name, and the numbers of its cases and
of its arguments. -/
structure ShowsDispatch (image : Image) (place : Nat) (header : RenderedInstruction)
    (callee : Callee) (name : String) : Prop where
  /-- The opcode starts a function with several cases. -/
  opcode : header.opcode = .dispatchStart
  /-- The function is the first word behind the opcode. -/
  function : image.code[place + 1]? = some callee.function
  /-- The number of arguments is the third word. -/
  arguments : image.code[place + 3]? = some callee.arguments
  /-- The text has the name and the two numbers. -/
  text : ∃ cases : Word, image.code[place + 2]? = some cases ∧
    header.operands = name ++ " (multi_start) " ++ cases.text ++ " " ++ callee.arguments.text

/-- A header shows a callee under a name, and calls of it are followed by a number of types: one for
each parameter that is shown, or as many as the number of arguments that is shown, which counts as
zero if it is negative. -/
inductive Shows (image : Image) (place : Nat) (header : RenderedInstruction) (callee : Callee)
    (name : String) : Nat → Prop where
  /-- The header of a function. -/
  | function (parameters : List Word) :
      ShowsFunction image place header callee name parameters →
        Shows image place header callee name parameters.length
  /-- The header of a function with several cases. -/
  | dispatch : ShowsDispatch image place header callee name →
      Shows image place header callee name callee.arguments.count

/-- All but the name is given by places of the stream, so the text of a function has one name
only. -/
theorem ShowsFunction.name_unique {name' : String} {parameters parameters' : List Word}
    (shows : ShowsFunction image place header callee name parameters)
    (shows' : ShowsFunction image place header callee name' parameters') : name = name' := by
  have same : parameters = parameters' := by
    apply List.ext_getElem?
    intro index
    have length : parameters.length = parameters'.length := shows.counted.trans shows'.counted.symm
    by_cases among : index < parameters.length
    · rw [shows.listed index among, shows'.listed index (length ▸ among)]
    · rw [List.getElem?_eq_none (by omega), List.getElem?_eq_none (by omega)]
  obtain ⟨results, keep, owned, places, text⟩ := shows.text
  obtain ⟨results', keep', owned', places', text'⟩ := shows'.text
  obtain rfl := Option.some.inj (places.atResults.symm.trans places'.atResults)
  obtain rfl := Option.some.inj (places.atKeep.symm.trans places'.atKeep)
  obtain rfl := Option.some.inj (places.atOwned.symm.trans places'.atOwned)
  rw [text, ← same] at text'
  simpa only [String.append_left_inj] using text'

/-- A header shows a callee under one name only. -/
theorem Shows.name_unique {name' : String} {types types' : Nat}
    (shows : Shows image place header callee name types)
    (shows' : Shows image place header callee name' types') : name = name' := by
  have apart : Opcode.dispatchStart ≠ Opcode.functionStart := by decide
  cases shows with
  | function parameters shown =>
    cases shows' with
    | function parameters' shown' => exact shown.name_unique shown'
    | dispatch shown' => exact absurd (shown'.opcode.symm.trans shown.opcode) apart
  | dispatch shown =>
    cases shows' with
    | function parameters' shown' => exact absurd (shown.opcode.symm.trans shown'.opcode) apart
    | dispatch shown' =>
      obtain ⟨cases, found, text⟩ := shown.text
      obtain ⟨cases', found', text'⟩ := shown'.text
      obtain rfl := Option.some.inj (found.symm.trans found')
      rw [text] at text'
      simpa only [String.append_left_inj] using text'

/-- The name that a call shows is the one that the header shows, unless the header of a function
shows that it has no entry. -/
def SameName (header : RenderedInstruction) (callee : Callee) (name called : String) : Prop :=
  if header.opcode = .functionStart ∧ callee.function.toInt < 0 then
    name = "__dummy" ∧ called = "?" ++ callee.function.text
  else called = name

/-- A function before the table is shown by its word. -/
theorem showFunction_of_neg (tables : NameTables) {function : Word}
    (negative : function.toInt < 0) :
    tables.showFunction function = "?" ++ function.text := by
  unfold NameTables.showFunction NameTables.functionName?
  rw [lookup?_eq_none_of_neg _ negative]
  rfl

/-- What the machine decodes on a stream of places that are words is a decoded instruction. -/
theorem exists_decoded (cursor : place + 1 < UInt64.size)
    (addressable : Addressable image.code)
    (decoded : decode image natives place = some (.ok header)) :
    ∃ instruction, Instruction.decode image.code place = .ok instruction ∧
      header = instruction.rendered image.toNameTables natives := by
  rw [decode_eq image natives cursor addressable] at decoded
  cases found : Instruction.decode image.code place with
  | error fault =>
    rw [found] at decoded
    cases decoded
  | ok instruction =>
    rw [found] at decoded
    cases decoded
    exact ⟨instruction, rfl, rfl⟩

/-- The header of a function shows the callee that a call finds there. -/
theorem exists_shows_function {instruction : Instruction}
    (decoded : Instruction.decode image.code place = .ok instruction)
    (opcode : instruction.opcode = .functionStart) :
    ∃ callee name types,
      Shows image place (instruction.rendered image.toNameTables natives) callee name types ∧
      SameName (instruction.rendered image.toNameTables natives) callee name
        (image.showFunction callee.function) ∧
      types = callee.arguments.count := by
  obtain ⟨-, -, read⟩ := Instruction.decode_eq_ok_iff.mp decoded
  have layout : Opcode.functionStart.layout = .functionHeader :=
    ((Opcode.layout_named _).2.2.1).mpr rfl
  rw [opcode, layout] at read
  generalize held : instruction.operands = operands at read
  obtain ⟨signature, _, done, made⟩ := OperandReader.bind_eq_ok_iff.mp read
  cases made
  obtain ⟨function, arguments, results, keep, owned, places, rfl, -⟩ :=
    Operands.readFunctionHeader_eq_ok_iff.mp done
  have inside : place + 3 + arguments.count ≤ image.code.size := by
    have := places.inside
    omega
  have length := length_slice inside
  refine ⟨⟨function, arguments⟩,
    if function.toInt < 0 then "__dummy" else image.showFunction function, _,
    .function (slice image.code (place + 3) arguments.count) ?_, ?_, length⟩
  · refine ⟨opcode, places.atFunction, places.atParameters, length, ?_, results, keep, owned,
      places, ?_⟩
    · intro index among
      rw [getElem?_slice inside (length ▸ among)]
    · show instruction.operands.text _ _ = _
      rw [held]
      rfl
  · unfold SameName
    by_cases negative : function.toInt < 0
    · rw [if_pos ⟨opcode, negative⟩, if_pos negative]
      exact ⟨rfl, showFunction_of_neg _ negative⟩
    · rw [if_neg (fun both => negative both.2), if_neg negative]

/-- The header of a function with several cases shows the callee that a call finds there. -/
theorem exists_shows_dispatch {instruction : Instruction}
    (decoded : Instruction.decode image.code place = .ok instruction)
    (opcode : instruction.opcode = .dispatchStart) :
    ∃ callee name types,
      Shows image place (instruction.rendered image.toNameTables natives) callee name types ∧
      SameName (instruction.rendered image.toNameTables natives) callee name
        (image.showFunction callee.function) ∧
      types = callee.arguments.count := by
  obtain ⟨-, -, read⟩ := Instruction.decode_eq_ok_iff.mp decoded
  have layout : Opcode.dispatchStart.layout = .dispatchHeader :=
    ((Opcode.layout_named _).2.2.2).mpr rfl
  rw [opcode, layout] at read
  obtain ⟨function, cases, arguments, operands, atFunction, atCases, atArguments⟩ :=
    Operands.dispatchHeader_of_read read
  have text : (instruction.rendered image.toNameTables natives).operands =
      image.showFunction function ++ " (multi_start) " ++ cases.text ++ " " ++ arguments.text := by
    show instruction.operands.text _ _ = _
    rw [operands]
    rfl
  refine ⟨⟨function, arguments⟩, image.showFunction function, arguments.count, .dispatch ?_, ?_,
    rfl⟩
  · exact ⟨opcode, atFunction, atArguments, cases, atCases, text⟩
  · have other : ¬ ((instruction.rendered image.toNameTables natives).opcode = .functionStart ∧
        function.toInt < 0) := by
      rintro ⟨start, -⟩
      have different : Opcode.dispatchStart ≠ Opcode.functionStart := by decide
      exact different (opcode.symm.trans start)
    unfold SameName
    rw [if_neg other]

/-- A decoded header shows a callee under a name, which is the name that calls show. -/
theorem exists_shows {instruction : Instruction}
    (decoded : Instruction.decode image.code place = .ok instruction)
    (starts : instruction.opcode = .functionStart ∨ instruction.opcode = .dispatchStart) :
    ∃ callee name types,
      Shows image place (instruction.rendered image.toNameTables natives) callee name types ∧
      SameName (instruction.rendered image.toNameTables natives) callee name
        (image.showFunction callee.function) ∧
      types = callee.arguments.count := by
  obtain start | start := starts
  · exact exists_shows_function decoded start
  · exact exists_shows_dispatch decoded start

/-- A call finds the callee that the header at its target shows. -/
theorem Shows.find? {target : Word} {types : Nat} (small : image.code.size < Int32.size / 2)
    (nonnegative : 0 ≤ target.toInt)
    (opcode : image.code[target.toInt.toNat]? = some header.opcode.word)
    (shows : Shows image target.toInt.toNat header callee name types) :
    Callee.find? image.code target = some callee := by
  have words : Int32.size = 4294967296 := rfl
  cases shows with
  | function parameters shown =>
    have inside := (Array.getElem?_eq_some_iff.mp shown.arguments).1
    rw [shown.opcode] at opcode
    have header : Callee.HeaderAt image.code target 2 :=
      ⟨nonnegative, Or.inl ⟨opcode, rfl⟩, inside, by rw [Int32.toInt_maxValue]; omega⟩
    exact Callee.find?_eq_some_iff.mpr ⟨2, header, shown.function, shown.arguments⟩
  | dispatch shown =>
    have inside := (Array.getElem?_eq_some_iff.mp shown.arguments).1
    rw [shown.opcode] at opcode
    have header : Callee.HeaderAt image.code target 3 :=
      ⟨nonnegative, Or.inr ⟨opcode, rfl⟩, inside, by rw [Int32.toInt_maxValue]; omega⟩
    exact Callee.find?_eq_some_iff.mpr ⟨3, header, shown.function, shown.arguments⟩

/-- What the machine decodes at a call of a callee, by the opcode of the call. -/
structure CallOutcomes (image : Image) (natives : Natives) (offset : Nat) (target : Word)
    (arguments : Word) (name : String) (types : Nat) : Prop where
  /-- It is no bad call. -/
  good : ∀ bad, decode image natives offset ≠ some (.error (.badCallTarget bad))
  /-- The text has the number of arguments, the name and the target. -/
  text : ∀ call, decode image natives offset = some (.ok call) →
    call.operands = arguments.text ++ " " ++ name ++ " " ++ target.text
  /-- Without types it has two words. -/
  single : image.code[offset]? = some Opcode.call.word →
    ∃ call, decode image natives offset = some (.ok call) ∧ call.next = offset + 2
  /-- With types it has these besides, if they are in the stream. -/
  complete : image.code[offset]? = some Opcode.multiCall.word →
    offset + 2 + types ≤ image.code.size →
      ∃ call, decode image natives offset = some (.ok call) ∧ call.next = offset + 2 + types
  /-- It is truncated by those that are not. -/
  truncated : image.code[offset]? = some Opcode.multiCall.word →
    image.code.size < offset + 2 + types →
      decode image natives offset =
        some (.error (.truncated offset (offset + 2 + types - image.code.size)))

/-- The outcomes of a call whose callee is found. -/
theorem callOutcomes {offset : Nat} {target : Word} (addressable : Addressable image.code)
    (called : Instruction.CallAt image.code offset target)
    (found : Callee.find? image.code target = some callee) :
    CallOutcomes image natives offset target callee.arguments
      (image.showFunction callee.function) callee.arguments.count := by
  have inside : offset + 1 < image.code.size := (Array.getElem?_eq_some_iff.mp called.target).1
  have machine := decode_eq image natives
    (addressable.cursor_lt (by omega : offset ≤ image.code.size)) addressable
  have single (isCall : image.code[offset]? = some Opcode.call.word) :=
    Instruction.decode_call called isCall found
  have multi (isCall : image.code[offset]? = some Opcode.multiCall.word) :=
    Instruction.decode_multiCall called isCall found
  constructor
  · intro bad
    rw [machine]
    obtain isCall | isCall := called.opcode
    · rw [single isCall]
      nofun
    · rw [multi isCall]
      split <;> nofun
  · intro call
    rw [machine]
    obtain isCall | isCall := called.opcode
    · rw [single isCall]
      rintro ⟨⟩
      rfl
    · rw [multi isCall]
      split
      · rintro ⟨⟩
        rfl
      · nofun
  · intro isCall
    rw [machine, single isCall]
    exact ⟨_, rfl, rfl⟩
  · intro isCall fits
    rw [machine, multi isCall, if_pos fits]
    refine ⟨_, rfl, ?_⟩
    show offset + (1 + (1 + callee.arguments.count)) = _
    omega
  · intro isCall missing
    rw [machine, multi isCall, if_neg (by omega)]
    rfl

/-- In a stream whose places are words, a call agrees with the header at its target, wherever that
header lies. The call shows the number of arguments and the name that the header shows, and the
target. It is no bad call: without types it is decoded, with two words, and with types it is decoded
if they are in the stream, and truncated otherwise. -/
theorem decode_call_agrees {image : Image} {natives : Natives} {offset : Nat} {target : Word}
    {header : RenderedInstruction} (small : image.code.size < Int32.size / 2)
    (called : Instruction.CallAt image.code offset target) (nonnegative : 0 ≤ target.toInt)
    (decoded : decode image natives target.toInt.toNat = some (.ok header))
    (starts : header.opcode = .functionStart ∨ header.opcode = .dispatchStart) :
    ∃ callee name calledName types, Shows image target.toInt.toNat header callee name types ∧
      SameName header callee name calledName ∧
      CallOutcomes image natives offset target callee.arguments calledName types := by
  have words : Int32.size = 4294967296 := rfl
  have cursors : UInt64.size = 18446744073709551616 := rfl
  have addressable : Addressable image.code := by
    unfold Addressable
    omega
  have cursor : target.toInt.toNat + 1 < UInt64.size := by
    have bound := target.toInt_lt
    omega
  obtain ⟨instruction, found, rfl⟩ := exists_decoded cursor addressable decoded
  have opcode := (Instruction.decode_eq_ok_iff.mp found).2.1
  obtain ⟨callee, name, types, shows, same, rfl⟩ := exists_shows found starts
  exact ⟨callee, name, _, _, shows, same,
    callOutcomes addressable called (shows.find? small nonnegative opcode)⟩

/-- A function with one parameter and without an entry, and a call of it that is followed by a
type. -/
def callingUnnamed : Image := { code := #[40, -1, 1, 7, 0, 0, 0, 37, 0, 5] }

/-- A call of a function without an entry shows the word of the function, where its header shows
that it has no name. -/
theorem decode_call_agrees_unnamed :
    callingUnnamed.code.size < Int32.size / 2 ∧
      Instruction.CallAt callingUnnamed.code 7 0 ∧ 0 ≤ (0 : Word).toInt ∧
      ∃ header, decode callingUnnamed {} 0 = some (.ok header) ∧
        header.opcode = .functionStart ∧
        ∃ callee name calledName types, Shows callingUnnamed 0 header callee name types ∧
          SameName header callee name calledName ∧
          CallOutcomes callingUnnamed {} 7 0 callee.arguments calledName types := by
  have small : callingUnnamed.code.size < Int32.size / 2 := by decide
  have called : Instruction.CallAt callingUnnamed.code 7 0 :=
    ⟨Or.inr (by decide +kernel), by decide +kernel⟩
  have addressable : Addressable callingUnnamed.code := by
    unfold Addressable
    decide
  have decoded : decode callingUnnamed {} 0 = some (.ok
      (Instruction.rendered callingUnnamed.toNameTables {}
        ⟨0, .functionStart, .functionHeader ⟨-1, [7], [], 0, []⟩, 6⟩)) := by
    rw [decode_eq callingUnnamed {} (by decide) addressable]
    have found : Instruction.decode callingUnnamed.code 0 =
        .ok ⟨0, .functionStart, .functionHeader ⟨-1, [7], [], 0, []⟩, 6⟩ := by decide +kernel
    rw [found]
    rfl
  exact ⟨small, called, by decide, _, decoded, rfl,
    decode_call_agrees small called (by decide) decoded (Or.inl rfl)⟩

end Machine

end Disassembler
