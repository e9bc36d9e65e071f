import Disassembler.Json.Token

/-!
# What a document holds

A text is read as far as it is a JSON document. Where it stops being one, the
value that should come next is damaged, and everything around it ends there. So
whoever walks over a reading from front to back meets what the text holds in
its order, and the damage in its place.
-/

namespace Disassembler.Json

/-- The value that a text holds, up to the first damage. -/
inductive Reading where
  | null
  | bool (value : Bool)
  | number (numeral : Numeral)
  /-- A string, and its text if it stands for one. -/
  | string (text : Option String)
  | array (items : List Reading)
  /-- Members, each with the text of its key if that stands for one. A member whose key is
  damaged has no text there, and a damaged value. -/
  | object (members : List (Option String × Reading))
  /-- The text is no document from here on. -/
  | damaged

/-- A container that is still open, with what it holds so far. -/
inductive Frame where
  | array (items : Array Reading)
  /-- An object, with the text of the key whose value has not come yet. -/
  | object (members : Array (Option String × Reading)) (key : Option String)

/-- What may come next in a document. -/
inductive Expected where
  /-- A value. -/
  | value
  /-- The first item of an array, or its end. -/
  | item
  /-- A comma, or the end of the innermost container. -/
  | separator
  /-- The first key of an object, or its end. -/
  | member
  /-- A key. -/
  | key
  /-- A colon. -/
  | colon
  deriving DecidableEq

/-- The state of reading between two tokens. -/
inductive Reader where
  /-- Inside containers, the innermost one first. -/
  | inside (frames : List Frame) (expected : Expected)
  /-- Behind the value, or behind the damage, and whether tokens came after it. -/
  | done (root : Reading) (trailing : Bool)

namespace Frame

/-- Adds a value to a container. -/
def add (value : Reading) : Frame → Frame
  | .array items => .array (items.push value)
  | .object members key => .object (members.push (key, value)) none

/-- The value of a container that ends. -/
def close : Frame → Reading
  | .array items => .array items.toList
  | .object members _ => .object members.toList

end Frame

namespace Reader

/-- Ends all containers around a value. -/
def collapse (value : Reading) (frames : List Frame) : Reading :=
  frames.foldl (fun inner frame => (frame.add inner).close) value

/-- Goes on behind a complete value. -/
def complete (value : Reading) : List Frame → Reader
  | [] => .done value false
  | frame :: frames => .inside (frame.add value :: frames) .separator

/-- Ends the reading with damage in the place of the next value. -/
def damage (frames : List Frame) : Reader := .done (collapse .damaged frames) false

/-- Takes the token at the place of a value. -/
def value (frames : List Frame) : Token → Reader
  | .openArray => .inside (.array #[] :: frames) .item
  | .openObject => .inside (.object #[] none :: frames) .member
  | .null => complete .null frames
  | .bool truth => complete (.bool truth) frames
  | .number numeral => complete (.number numeral) frames
  | .string text => complete (.string text) frames
  | _ => damage frames

/-- Takes the token at the place of a key, which has to be a string. -/
def key : List Frame → Token → Reader
  | .object members _ :: outer, .string text => .inside (.object members text :: outer) .colon
  | frames, _ => damage frames

/-- Takes one token. -/
def step : Reader → Token → Reader
  | .done root _, _ => .done root true
  | .inside frames .value, token => value frames token
  | .inside (.array items :: frames) .item, .closeArray => complete (Frame.array items).close frames
  | .inside frames .item, token => value frames token
  | .inside (.array items :: frames) .separator, token =>
    match token with
    | .comma => .inside (.array items :: frames) .value
    | .closeArray => complete (Frame.array items).close frames
    | _ => damage (.array items :: frames)
  | .inside (.object members pending :: frames) .separator, token =>
    match token with
    | .comma => .inside (.object members pending :: frames) .key
    | .closeObject => complete (Frame.object members pending).close frames
    | _ => damage (.object members pending :: frames)
  | .inside [] .separator, _ => damage []
  | .inside (.object members pending :: frames) .member, .closeObject =>
    complete (Frame.object members pending).close frames
  | .inside frames .member, token => key frames token
  | .inside frames .key, token => key frames token
  | .inside frames .colon, token =>
    match token with
    | .colon => .inside frames .value
    | _ => damage frames

/-- The value, and whether tokens came after it, at the end of the tokens. -/
def finish : Reader → Reading × Bool
  | .inside frames _ => (collapse .damaged frames, false)
  | .done root trailing => (root, trailing)

end Reader

namespace Reading

/-- What tokens hold, and whether tokens came after it. -/
def ofTokens (tokens : List Token) : Reading × Bool :=
  (tokens.foldl Reader.step (.inside [] .value)).finish

/-- What a text holds, and whether tokens came after it. -/
def ofBytes (bytes : List UInt8) : Reading × Bool := ofTokens (Token.ofBytes bytes)

mutual

/-- Whether there is no damage in a reading. -/
def intact : Reading → Bool
  | .array items => intactItems items
  | .object members => intactMembers members
  | .damaged => false
  | _ => true

/-- Whether there is no damage in items. -/
def intactItems : List Reading → Bool
  | [] => true
  | item :: rest => item.intact && intactItems rest

/-- Whether there is no damage in members. -/
def intactMembers : List (Option String × Reading) → Bool
  | [] => true
  | (_, value) :: rest => value.intact && intactMembers rest

end

end Reading

end Disassembler.Json
