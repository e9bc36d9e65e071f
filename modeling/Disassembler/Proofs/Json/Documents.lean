import Disassembler.Proofs.Json.Nesting

/-!
# Reading printed values

The tokens of a value are those of what its document should hold, and nothing in that is damaged. So
a document that is printed from a value holds that value, and it is read as the value again, as the
digits of a whole number stand for the number.
-/

namespace Disassembler.Json

namespace Numeral

/-- The digits of a number stand for it. -/
theorem digitsValue_digits (value : Nat) : digitsValue (digits value) = value := by
  fun_induction digits value with
  | case1 value small =>
    rw [digitsValue, digitsValue]
    omega
  | case2 value large ih =>
    rw [digitsValue, ih]
    omega

/-- A whole number is written as itself. -/
theorem integer?_ofInt (value : Int) : (ofInt value).integer? = some value := by
  show (if decide (value < 0) = true then
      if (digitsValue (digits value.natAbs) : Int) = 0 then none
      else some (-(digitsValue (digits value.natAbs) : Int))
    else some (digitsValue (digits value.natAbs) : Int)) = _
  rw [digitsValue_digits]
  by_cases negative : value < 0
  · rw [if_pos (decide_eq_true negative), if_neg (by omega)]
    congr 1
    omega
  · rw [if_neg (by simpa using negative)]
    congr 1
    omega

end Numeral

namespace Value

mutual

/-- What the document of a value holds. -/
def reading : Value → Reading
  | .null => .null
  | .bool value => .bool value
  | .integer value => .number (Numeral.ofInt value)
  | .string text => .string (some text)
  | .array items => .array (readingItems items)
  | .object members => .object (readingMembers members)

/-- What items hold. -/
def readingItems : List Value → List Reading
  | [] => []
  | value :: rest => value.reading :: readingItems rest

/-- What members hold. -/
def readingMembers : List (String × Value) → List (Option String × Reading)
  | [] => []
  | (key, value) :: rest => (some key, value.reading) :: readingMembers rest

end

/-- Items hold the tokens of what their documents hold if each one does. -/
theorem tokensOfItems_readingItems (items : List Value)
    (each : ∀ item ∈ items, item.reading.tokens = item.tokens) :
    Reading.tokensOfItems (readingItems items) = tokensOfItems items := by
  induction items with
  | nil => rfl
  | cons item rest ih =>
    obtain ⟨first, others⟩ := List.forall_mem_cons.mp each
    cases rest with
    | nil => exact first
    | cons second rest =>
      change item.reading.tokens ++
          .comma :: Reading.tokensOfItems (readingItems (second :: rest)) =
        item.tokens ++ .comma :: tokensOfItems (second :: rest)
      rw [first, ih others]

/-- Members hold the tokens of what their documents hold if each value does. -/
theorem tokensOfMembers_readingMembers (members : List (String × Value))
    (each : ∀ member ∈ members, member.2.reading.tokens = member.2.tokens) :
    Reading.tokensOfMembers (readingMembers members) = tokensOfMembers members := by
  induction members with
  | nil => rfl
  | cons member rest ih =>
    obtain ⟨key, value⟩ := member
    obtain ⟨first, others⟩ := List.forall_mem_cons.mp each
    cases rest with
    | nil => exact congrArg (.string (some key) :: .colon :: ·) first
    | cons second rest =>
      change Token.string (some key) :: .colon :: (value.reading.tokens ++
          .comma :: Reading.tokensOfMembers (readingMembers (second :: rest))) =
        .string (some key) :: .colon :: (value.tokens ++
          .comma :: tokensOfMembers (second :: rest))
      rw [first, ih others]

/-- A value has the tokens of what its document holds. -/
theorem tokens_reading (value : Value) : value.reading.tokens = value.tokens := by
  induction value using Value.parts_induction with
  | null | bool _ | integer _ | string _ => rfl
  | array items ih => rw [reading, Reading.tokens, tokens, tokensOfItems_readingItems items ih]
  | object members ih =>
    rw [reading, Reading.tokens, tokens, tokensOfMembers_readingMembers members ih]

/-- Nothing in what the document of a value holds is damaged. -/
theorem intact_reading (value : Value) : value.reading.intact = true := by
  induction value using Value.parts_induction with
  | null | bool _ | integer _ | string _ => rfl
  | array items ih =>
    refine Reading.intact_array.mpr ?_
    induction items with
    | nil => exact List.forall_mem_nil _
    | cons item rest inner =>
      obtain ⟨first, others⟩ := List.forall_mem_cons.mp ih
      exact List.forall_mem_cons.mpr ⟨first, inner others⟩
  | object members ih =>
    refine Reading.intact_object.mpr ?_
    induction members with
    | nil => exact List.forall_mem_nil _
    | cons member rest inner =>
      obtain ⟨first, others⟩ := List.forall_mem_cons.mp ih
      exact List.forall_mem_cons.mpr ⟨first, inner others⟩

end Value

/-- A document of a value holds the value, and nothing behind it. -/
theorem Reading.ofBytes_printed {value : Value} {text : List Char} (printed : value.Printed text) :
    Reading.ofBytes (octets text) = (value.reading, false) := by
  unfold Reading.ofBytes Reading.ofTokens
  rw [Token.ofBytes_printed printed, ← value.tokens_reading,
    Reader.completes value.intact_reading]
  rfl

namespace Value

mutual

/-- The value of a reading, if its numbers are whole and its strings stand for texts. -/
def ofReading? : Reading → Option Value
  | .null => some .null
  | .bool value => some (.bool value)
  | .number numeral => numeral.integer?.map .integer
  | .string text => text.map .string
  | .array items => (ofItems? items).map .array
  | .object members => (ofMembers? members).map .object
  | .damaged => none

/-- The values of items, if each one has a value. -/
def ofItems? : List Reading → Option (List Value)
  | [] => some []
  | item :: rest =>
    match ofReading? item, ofItems? rest with
    | some value, some values => some (value :: values)
    | _, _ => none

/-- The members of an object, if each one has a key and a value. -/
def ofMembers? : List (Option String × Reading) → Option (List (String × Value))
  | [] => some []
  | (key, item) :: rest =>
    match key, ofReading? item, ofMembers? rest with
    | some key, some value, some members => some ((key, value) :: members)
    | _, _, _ => none

end

/-- What the document of a value holds has that value. -/
theorem ofReading?_reading (value : Value) : ofReading? value.reading = some value := by
  induction value using Value.parts_induction with
  | null | bool _ | string _ => rfl
  | integer value => rw [reading, ofReading?, Numeral.integer?_ofInt, Option.map_some]
  | array items ih =>
    have each : ofItems? (readingItems items) = some items := by
      induction items with
      | nil => rfl
      | cons item rest inner =>
        obtain ⟨first, others⟩ := List.forall_mem_cons.mp ih
        simp only [readingItems, ofItems?, first, inner others]
    rw [reading, ofReading?, each, Option.map_some]
  | object members ih =>
    have each : ofMembers? (readingMembers members) = some members := by
      induction members with
      | nil => rfl
      | cons member rest inner =>
        obtain ⟨key, value⟩ := member
        obtain ⟨first, others⟩ := List.forall_mem_cons.mp ih
        have head : ofReading? value.reading = some value := first
        simp only [readingMembers, ofMembers?, head, inner others]
    rw [reading, ofReading?, each, Option.map_some]

/-- The value of a text, if the text is a document of one with nothing behind it. -/
def parse? (text : List Char) : Option Value :=
  match Reading.ofBytes (octets text) with
  | (root, false) => ofReading? root
  | (_, true) => none

/-- A document that is printed from a value is read as that value. -/
theorem parse?_printed {value : Value} {text : List Char} (printed : value.Printed text) :
    parse? text = some value := by
  rw [parse?, Reading.ofBytes_printed printed]
  exact value.ofReading?_reading

end Value

end Disassembler.Json
