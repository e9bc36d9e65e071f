/-!
# JSON values

The values of JSON documents whose numbers are whole. The members of an object
are a list: their order is what a document shows, and two objects whose
members are the same up to order have the same sorted form.
-/

namespace Disassembler.Json

/-- A value of a JSON document. -/
inductive Value where
  | null
  | bool (value : Bool)
  | integer (value : Int)
  | string (text : String)
  | array (items : List Value)
  | object (members : List (String × Value))

namespace Value

/-- Adds a member to members in alphabetic order, before those whose key is not smaller. -/
def insertMember (member : String × Value) :
    List (String × Value) → List (String × Value)
  | [] => [member]
  | head :: tail =>
    if head.1 < member.1 then head :: insertMember member tail else member :: head :: tail

mutual

/-- A value with the members of all its objects in alphabetic order. -/
def sorted : Value → Value
  | .null => .null
  | .bool value => .bool value
  | .integer value => .integer value
  | .string text => .string text
  | .array items => .array (sortedItems items)
  | .object members => .object (sortedMembers members)

/-- Values with the members of all their objects in alphabetic order. -/
def sortedItems : List Value → List Value
  | [] => []
  | value :: rest => value.sorted :: sortedItems rest

/-- Members in alphabetic order, as are those of all objects in their values. -/
def sortedMembers : List (String × Value) → List (String × Value)
  | [] => []
  | (key, value) :: rest => insertMember (key, value.sorted) (sortedMembers rest)

end

/-- The value of the first member with a key, in an object that has one. -/
def member? (key : String) : Value → Option Value
  | .object members => members.lookup key
  | _ => none

end Value

end Disassembler.Json
