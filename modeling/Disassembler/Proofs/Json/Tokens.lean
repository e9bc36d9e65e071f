import Disassembler.Json.Printer
import Disassembler.Json.Token

/-!
# Tokens of values

The tokens that a document of a value is cut into. They say the same as the text without its
blanks. A whole number is the token of its decimal digits, and of a minus sign if it is negative.
-/

namespace Disassembler.Json

/-- The decimal digits of a number, the last one first. -/
def Numeral.digits (value : Nat) : List Nat :=
  if value < 10 then [value] else value % 10 :: Numeral.digits (value / 10)

/-- The number as which a whole number is written. -/
def Numeral.ofInt (value : Int) : Numeral where
  negative := value < 0
  whole := Numeral.digits value.natAbs

namespace Value

mutual

/-- The tokens of a value. -/
def tokens : Value → List Token
  | .null => [.null]
  | .bool value => [.bool value]
  | .integer value => [.number (Numeral.ofInt value)]
  | .string text => [.string (some text)]
  | .array items => .openArray :: (tokensOfItems items ++ [.closeArray])
  | .object members => .openObject :: (tokensOfMembers members ++ [.closeObject])

/-- The tokens of items with commas between them. -/
def tokensOfItems : List Value → List Token
  | [] => []
  | [value] => value.tokens
  | value :: rest => value.tokens ++ .comma :: tokensOfItems rest

/-- The tokens of members with commas between them. -/
def tokensOfMembers : List (String × Value) → List Token
  | [] => []
  | [(key, value)] => .string (some key) :: .colon :: value.tokens
  | (key, value) :: rest =>
    .string (some key) :: .colon :: (value.tokens ++ .comma :: tokensOfMembers rest)

end

/-- What holds of a value if it holds of the values in it holds of all values. -/
@[elab_as_elim]
theorem parts_induction {motive : Value → Prop} (null : motive .null)
    (bool : ∀ value, motive (.bool value)) (integer : ∀ value, motive (.integer value))
    (string : ∀ text, motive (.string text))
    (array : ∀ items, (∀ item ∈ items, motive item) → motive (.array items))
    (object : ∀ members, (∀ member ∈ members, motive member.2) → motive (.object members))
    (value : Value) : motive value :=
  @Value.rec motive (fun items => ∀ item ∈ items, motive item)
    (fun members => ∀ member ∈ members, motive member.2) (fun member => motive member.2)
    null bool integer string array object
    (List.forall_mem_nil _) (fun _ _ head tail => List.forall_mem_cons.mpr ⟨head, tail⟩)
    (List.forall_mem_nil _) (fun _ _ head tail => List.forall_mem_cons.mpr ⟨head, tail⟩)
    (fun _ _ value => value) value

end Value

end Disassembler.Json
