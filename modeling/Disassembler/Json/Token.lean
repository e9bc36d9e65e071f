import Disassembler.Json.Numeral
import Disassembler.Json.StringPart
import Disassembler.Text.Hex

/-!
# JSON tokens

A document is cut into tokens by a machine that takes one byte at a time. A
byte that no token can have at its place ends the cutting with a fault token,
as does the end of the bytes inside a token. Blanks separate tokens and are
otherwise lost.
-/

namespace Disassembler.Json

/-- A token of a document. -/
inductive Token where
  /-- The bracket that starts an array. -/
  | openArray
  /-- The bracket that ends an array. -/
  | closeArray
  /-- The brace that starts an object. -/
  | openObject
  /-- The brace that ends an object. -/
  | closeObject
  /-- The comma between two items or members. -/
  | comma
  /-- The colon between a key and its value. -/
  | colon
  /-- The word for no value. -/
  | null
  /-- One of the two words for truth values. -/
  | bool (value : Bool)
  /-- A number. -/
  | number (numeral : Numeral)
  /-- A string, and its text if it stands for one. -/
  | string (text : Option String)
  /-- What follows is no token. -/
  | fault
  deriving DecidableEq

/-- How far a number has been read. -/
inductive NumberStage where
  /-- The minus sign. -/
  | sign
  /-- A zero that starts the number. -/
  | zero
  /-- Digits that do not start with zero. -/
  | whole
  /-- The point. -/
  | point
  /-- Digits after the point. -/
  | fraction
  /-- The letter of the exponent. -/
  | mark
  /-- The sign of the exponent. -/
  | exponentSign
  /-- Digits of the exponent. -/
  | exponent
  deriving DecidableEq

namespace NumberStage

/-- Whether a number may end at a stage. -/
def isComplete : NumberStage → Bool
  | .zero | .whole | .fraction | .exponent => true
  | .sign | .point | .mark | .exponentSign => false

/-- The digit that a character stands for. -/
def digit? (c : Char) : Option Nat :=
  if '0' ≤ c ∧ c ≤ '9' then some (c.toNat - '0'.toNat) else none

/-- The stage and the number after one more character, if it can follow. -/
def next? (stage : NumberStage) (numeral : Numeral) (c : Char) : Option (NumberStage × Numeral) :=
  match stage, digit? c with
  | .sign, some digit =>
    some (if digit = 0 then .zero else .whole, { numeral with whole := digit :: numeral.whole })
  | .whole, some digit => some (.whole, { numeral with whole := digit :: numeral.whole })
  | .point, some digit | .fraction, some digit =>
    some (.fraction, { numeral with fraction := digit :: numeral.fraction })
  | .mark, some digit | .exponentSign, some digit | .exponent, some digit =>
    some (.exponent, { numeral with exponent := digit :: numeral.exponent })
  | .zero, none | .whole, none =>
    if c = '.' then some (.point, numeral)
    else if c = 'e' ∨ c = 'E' then some (.mark, numeral)
    else none
  | .fraction, none => if c = 'e' ∨ c = 'E' then some (.mark, numeral) else none
  | .mark, none =>
    if c = '+' then some (.exponentSign, numeral)
    else if c = '-' then some (.exponentSign, { numeral with negativeExponent := true })
    else none
  | _, _ => none

end NumberStage

/-- Where the machine stands between two bytes. -/
inductive LexerState where
  /-- Between tokens. -/
  | between
  /-- Inside a word, with the characters that have to follow and the token that it is. -/
  | word (rest : List Char) (token : Token)
  /-- Inside a number. -/
  | number (stage : NumberStage) (numeral : Numeral)
  /-- Inside a string. -/
  | string (parts : Array StringPart)
  /-- Behind a backslash in a string. -/
  | escape (parts : Array StringPart)
  /-- Inside a unit of a string, with the number of digits that are missing and the value so far. -/
  | unit (parts : Array StringPart) (missing value : Nat)
  /-- Behind a fault. -/
  | broken

/-- The machine: its state, and the tokens so far. -/
structure Lexer where
  /-- Where the machine stands. -/
  state : LexerState := .between
  /-- The tokens that are complete. -/
  tokens : Array Token := #[]

namespace Lexer

/-- Whether a character separates tokens. -/
def isBlank (c : Char) : Bool := c == ' ' || c == '\t' || c == '\n' || c == '\r'

/-- The character that a letter behind a backslash stands for. -/
def escaped? (c : Char) : Option Char :=
  if c = '"' ∨ c = '\\' ∨ c = '/' then some c
  else if c = 'b' then some '\x08'
  else if c = 'f' then some '\x0c'
  else if c = 'n' then some '\n'
  else if c = 'r' then some '\r'
  else if c = 't' then some '\t'
  else none

/-- The machine behind a complete token. -/
def emit (tokens : Array Token) (token : Token) : Lexer := ⟨.between, tokens.push token⟩

/-- The machine that gives up. -/
def fail (tokens : Array Token) : Lexer := ⟨.broken, tokens.push .fault⟩

/-- Starts a token, or passes a blank. -/
def start (tokens : Array Token) (c : Char) : Lexer :=
  if isBlank c then ⟨.between, tokens⟩
  else if c = '[' then emit tokens .openArray
  else if c = ']' then emit tokens .closeArray
  else if c = '{' then emit tokens .openObject
  else if c = '}' then emit tokens .closeObject
  else if c = ',' then emit tokens .comma
  else if c = ':' then emit tokens .colon
  else if c = '"' then ⟨.string #[], tokens⟩
  else if c = 't' then ⟨.word ['r', 'u', 'e'] (.bool true), tokens⟩
  else if c = 'f' then ⟨.word ['a', 'l', 's', 'e'] (.bool false), tokens⟩
  else if c = 'n' then ⟨.word ['u', 'l', 'l'] .null, tokens⟩
  else if c = '-' then ⟨.number .sign { negative := true }, tokens⟩
  else match NumberStage.sign.next? {} c with
    | some (stage, numeral) => ⟨.number stage numeral, tokens⟩
    | none => fail tokens

/-- Goes on inside a word. -/
def stepWord (tokens : Array Token) (token : Token) (c : Char) : List Char → Lexer
  | [] => fail tokens
  | [last] => if c = last then emit tokens token else fail tokens
  | head :: rest => if c = head then ⟨.word rest token, tokens⟩ else fail tokens

/-- Goes on inside a number, or ends it. No digit follows a zero that starts a number. -/
def stepNumber (tokens : Array Token) (stage : NumberStage) (numeral : Numeral) (c : Char) :
    Lexer :=
  match stage.next? numeral c with
  | some (stage, numeral) => ⟨.number stage numeral, tokens⟩
  | none =>
    if stage.isComplete ∧ (NumberStage.digit? c).isNone then start (tokens.push (.number numeral)) c
    else fail tokens

/-- Goes on inside a string, or ends it. -/
def stepString (tokens : Array Token) (parts : Array StringPart) (byte : UInt8) (c : Char) :
    Lexer :=
  if c = '"' then
    emit tokens (.string ((StringPart.decode parts.toList).map String.ofList))
  else if c = '\\' then ⟨.escape parts, tokens⟩
  else if c.toNat < 0x20 then fail tokens
  else ⟨.string (parts.push (.byte byte)), tokens⟩

/-- Goes on behind a backslash in a string. -/
def stepEscape (tokens : Array Token) (parts : Array StringPart) (c : Char) : Lexer :=
  if c = 'u' then ⟨.unit parts 4 0, tokens⟩
  else match escaped? c with
    | some meant => ⟨.string (parts.push (.byte meant.toNat.toUInt8)), tokens⟩
    | none => fail tokens

/-- Goes on inside a unit of a string. -/
def stepUnit (tokens : Array Token) (parts : Array StringPart) (missing value : Nat) (c : Char) :
    Lexer :=
  match Text.Hex.value? c with
  | some digit =>
    let value := 16 * value + digit
    if missing ≤ 1 then ⟨.string (parts.push (.unit value)), tokens⟩
    else ⟨.unit parts (missing - 1) value, tokens⟩
  | none => fail tokens

/-- The character that a byte is compared as. -/
def character (byte : UInt8) : Char := Char.ofNat byte.toNat

/-- Takes one byte. -/
def step : Lexer → UInt8 → Lexer
  | ⟨.between, tokens⟩, byte => start tokens (character byte)
  | ⟨.word rest token, tokens⟩, byte => stepWord tokens token (character byte) rest
  | ⟨.number stage numeral, tokens⟩, byte => stepNumber tokens stage numeral (character byte)
  | ⟨.string parts, tokens⟩, byte => stepString tokens parts byte (character byte)
  | ⟨.escape parts, tokens⟩, byte => stepEscape tokens parts (character byte)
  | ⟨.unit parts missing value, tokens⟩, byte =>
    stepUnit tokens parts missing value (character byte)
  | ⟨.broken, tokens⟩, _ => ⟨.broken, tokens⟩

/-- The tokens at the end of the bytes. -/
def finish : Lexer → List Token
  | ⟨.between, tokens⟩ => tokens.toList
  | ⟨.broken, tokens⟩ => tokens.toList
  | ⟨.number stage numeral, tokens⟩ =>
    (tokens.push (if stage.isComplete then .number numeral else .fault)).toList
  | ⟨_, tokens⟩ => (tokens.push .fault).toList

end Lexer

/-- The tokens of a document. -/
def Token.ofBytes (bytes : List UInt8) : List Token := (bytes.foldl Lexer.step {}).finish

end Disassembler.Json
