import Disassembler.Json.Quoted
import Disassembler.Proofs.Json.Grammar
import Disassembler.Proofs.Json.Lexing

/-!
# Reading strings

A character can be written inside a string in several forms: as it is, with a letter behind a
backslash, and with the four digits of its code point. Each of them is made of parts that stand for
the character, and the machine reads these parts. So a quoted text, where each character has one of
the forms, is read as one token, which holds the text.
-/

namespace Disassembler.Json

namespace StringPart

/-- The parts of two strings follow each other. -/
theorem AllSpelled.append {parts parts' : List StringPart} {bytes bytes' : List UInt8}
    (first : AllSpelled parts bytes) (second : AllSpelled parts' bytes') :
    AllSpelled (parts ++ parts') (bytes ++ bytes') := by
  induction second with
  | nil =>
    rw [List.append_nil, List.append_nil]
    exact first
  | snoc _ part ih =>
    rw [← List.append_assoc, ← List.append_assoc]
    exact ih.snoc part

/-- A single part. -/
theorem allSpelled_singleton {part : StringPart} {bytes : List UInt8}
    (spelled : part.Spelled bytes) : AllSpelled [part] bytes := AllSpelled.nil.snoc spelled

/-- Bytes that stand for themselves. -/
theorem allSpelled_of_plain {bytes : List UInt8} (plain : ∀ byte ∈ bytes, Plain byte) :
    AllSpelled (bytes.map .byte) bytes := by
  induction bytes with
  | nil => exact .nil
  | cons byte rest ih =>
    obtain ⟨first, others⟩ := List.forall_mem_cons.mp plain
    exact (allSpelled_singleton (.plain first)).append (ih others)

/-- How a text is written inside a string: in parts that stand for it, whatever follows them. -/
def TextSpelled (text : List Char) (bytes : List UInt8) : Prop :=
  ∃ parts, AllSpelled parts bytes ∧
    ∀ rest, decode (parts ++ rest) = (decode rest).map (text ++ ·)

/-- No text is written as nothing. -/
theorem textSpelled_nil : TextSpelled [] [] := by
  refine ⟨[], .nil, fun rest => ?_⟩
  rw [List.nil_append]
  cases decode rest <;> rfl

/-- Two texts are written one after the other. -/
theorem TextSpelled.append {text text' : List Char} {bytes bytes' : List UInt8}
    (first : TextSpelled text bytes) (second : TextSpelled text' bytes') :
    TextSpelled (text ++ text') (bytes ++ bytes') := by
  obtain ⟨parts, spelled, decoded⟩ := first
  obtain ⟨parts', spelled', decoded'⟩ := second
  refine ⟨parts ++ parts', spelled.append spelled', fun rest => ?_⟩
  rw [List.append_assoc, decoded, decoded', Option.map_map]
  congr 1
  funext following
  exact (List.append_assoc _ _ _).symm

/-- The bytes of a character that is not escaped stand for themselves. -/
theorem plain_of_mem {c : Char} (visible : 0x20 ≤ c.toNat) (noQuote : c ≠ '"')
    (noBackslash : c ≠ '\\') : ∀ byte ∈ String.utf8EncodeChar c, Plain byte := by
  have value : c.val.toNat = c.toNat := rfl
  have quote : c.toNat ≠ 0x22 := fun same => noQuote (Char.toNat_inj.mp same)
  have backslash : c.toNat ≠ 0x5c := fun same => noBackslash (Char.toNat_inj.mp same)
  have high {number : Nat} (lower : 0x80 ≤ number) (upper : number < 256) :
      Plain (UInt8.ofNat number) := by
    have same := toNat_ofNat upper
    exact ⟨by omega, by omega, by omega⟩
  intro byte among
  unfold String.utf8EncodeChar at among
  simp only [value] at among
  split at among
  · rename_i one
    obtain rfl := List.mem_singleton.mp among
    have same := toNat_ofNat (by omega : c.toNat < 256)
    exact ⟨by omega, by omega, by omega⟩
  · split at among
    · simp only [List.mem_cons, List.not_mem_nil, or_false] at among
      obtain rfl | rfl := among <;> exact high (by omega) (by omega)
    · split at among
      · simp only [List.mem_cons, List.not_mem_nil, or_false] at among
        obtain rfl | rfl | rfl := among <;> exact high (by omega) (by omega)
      · simp only [List.mem_cons, List.not_mem_nil, or_false] at among
        obtain rfl | rfl | rfl | rfl := among <;> exact high (by omega) (by omega)

/-- A character that need not be escaped is written as it is. -/
theorem textSpelled_plain {c : Char} (visible : 0x20 ≤ c.toNat) (noQuote : c ≠ '"')
    (noBackslash : c ≠ '\\') : TextSpelled [c] (octets [c]) := by
  rw [octets_cons, show octets [] = [] from rfl, List.append_nil]
  exact ⟨_, allSpelled_of_plain (plain_of_mem visible noQuote noBackslash), decode_octets c⟩

/-- A character is written with a letter behind a backslash. -/
theorem textSpelled_letter {c letter : Char} (known : (letter, c) ∈ letters) :
    TextSpelled [c] (octets ['\\', letter]) := by
  have small : ∀ pair ∈ letters, pair.2.toNat < 0x80 := by decide
  have bytes := octets_singleton (small _ known)
  rw [octets_cons, show octets [] = [] from rfl, List.append_nil] at bytes
  refine ⟨_, allSpelled_singleton (.letter known), fun rest => ?_⟩
  have decoded := decode_octets c rest
  rw [bytes] at decoded
  exact decoded

/-- A character is written with the four digits of its code point. -/
theorem textSpelled_unit {c : Char} {digits : List Char} (number : HexDigits digits c.toNat)
    (four : digits.length = 4) : TextSpelled [c] (octets ('\\' :: 'u' :: digits)) :=
  ⟨_, allSpelled_singleton (.unit number four), decode_unit c⟩

/-- A character below the blank has four digits, of which the first two are zero. -/
theorem hexDigits_control {value : Nat} (control : value < 0x20) :
    HexDigits ['0', '0', Text.Hex.lower (value / 16), Text.Hex.lower (value % 16)] value := by
  have zero : Text.Hex.value? '0' = some 0 := by decide
  have number := (((HexDigits.nil.snoc zero).snoc zero).snoc
    (Text.Hex.value?_lower (by omega : value / 16 < 16))).snoc
    (Text.Hex.value?_lower (Nat.mod_lt value (by decide : 0 < 16)))
  have same : 16 * (16 * (16 * (16 * 0 + 0) + 0) + value / 16) + value % 16 = value := by omega
  rw [same] at number
  exact number

/-- Each character is printed in one of its forms. -/
theorem textSpelled_escape (c : Char) : TextSpelled [c] (octets (Quoted.escape c)) := by
  unfold Quoted.escape
  by_cases quote : c = '"'
  · subst quote
    exact textSpelled_letter (by decide)
  by_cases backslash : c = '\\'
  · subst backslash
    exact textSpelled_letter (by decide)
  rw [if_neg quote, if_neg backslash]
  by_cases lineFeed : c = '\n'
  · subst lineFeed
    exact textSpelled_letter (by decide)
  by_cases carriageReturn : c = '\r'
  · subst carriageReturn
    exact textSpelled_letter (by decide)
  by_cases tab : c = '\t'
  · subst tab
    exact textSpelled_letter (by decide)
  rw [if_neg lineFeed, if_neg carriageReturn, if_neg tab]
  by_cases backspace : c = '\x08'
  · subst backspace
    exact textSpelled_letter (by decide)
  by_cases formFeed : c = '\x0c'
  · subst formFeed
    exact textSpelled_letter (by decide)
  rw [if_neg backspace, if_neg formFeed]
  split
  · rename_i control
    exact textSpelled_unit (hexDigits_control control) rfl
  · rename_i visible
    exact textSpelled_plain (by omega) quote backslash

/-- A text is printed with each character in one of its forms. -/
theorem textSpelled_escaped (text : List Char) :
    TextSpelled text (octets (text.flatMap Quoted.escape)) := by
  induction text with
  | nil => exact textSpelled_nil
  | cons c rest ih =>
    rw [List.flatMap_cons, octets_append]
    exact (textSpelled_escape c).append ih

end StringPart

namespace Lexer

open StringPart

/-- The character that a byte is compared as has its number. -/
theorem toNat_character (byte : UInt8) : (character byte).toNat = byte.toNat := by
  have bound := byte.toNat_lt
  have valid : byte.toNat.isValidChar := Or.inl (by omega)
  unfold character Char.ofNat
  rw [dif_pos valid]
  rfl

variable {tokens : Array Token}

/-- A byte that stands for itself is kept. -/
theorem step_of_plain {byte : UInt8} (plain : Plain byte) (parts : Array StringPart) :
    step ⟨.string parts, tokens⟩ byte = ⟨.string (parts.push (.byte byte)), tokens⟩ := by
  have number := toNat_character byte
  have noQuote : character byte ≠ '"' := by
    intro same
    rw [same] at number
    exact plain.noQuote number.symm
  have noBackslash : character byte ≠ '\\' := by
    intro same
    rw [same] at number
    exact plain.noBackslash number.symm
  have visible := plain.visible
  show stepString tokens parts byte (character byte) = _
  unfold stepString
  rw [if_neg noQuote, if_neg noBackslash, if_neg (by omega)]

/-- A backslash inside a string starts an escape. -/
theorem run_backslash (before : Array StringPart) (rest : List Char) :
    run ⟨.string before, tokens⟩ ('\\' :: rest) = run ⟨.escape before, tokens⟩ rest := by
  rw [run_cons]
  rfl

/-- A letter behind a backslash is read as the byte of the character that it stands for. -/
theorem run_letter {c letter : Char} (small : letter.toNat < 0x80) (noUnit : letter ≠ 'u')
    (meant : escaped? letter = some c) (before : Array StringPart) :
    run ⟨.string before, tokens⟩ ['\\', letter] =
      ⟨.string (before.push (.byte (UInt8.ofNat c.toNat))), tokens⟩ := by
  rw [run_backslash, run_singleton _ small]
  show stepEscape tokens before (character _) = _
  rw [character_ofNat small]
  unfold stepEscape
  rw [if_neg noUnit, meant]

/-- A hexadecimal digit is one byte. -/
theorem small_of_value? {digit : Char} {number : Nat}
    (read : Text.Hex.value? digit = some number) : digit.toNat < 0x80 := by
  have upper : digit ≤ '9' ∨ digit ≤ 'f' ∨ digit ≤ 'F' := by
    unfold Text.Hex.value? at read
    grind
  have bound : digit.toNat ≤ 57 ∨ digit.toNat ≤ 102 ∨ digit.toNat ≤ 70 := upper
  omega

/-- A digit of a unit is read into its value. -/
theorem run_hexDigit (before : Array StringPart) (missing value : Nat) {digit : Char}
    {number : Nat} (read : Text.Hex.value? digit = some number) :
    run ⟨.unit before missing value, tokens⟩ [digit] =
      if missing ≤ 1 then ⟨.string (before.push (.unit (16 * value + number))), tokens⟩
      else ⟨.unit before (missing - 1) (16 * value + number), tokens⟩ := by
  have ascii := small_of_value? read
  rw [run_singleton _ ascii]
  show stepUnit tokens before missing value (character _) = _
  rw [character_ofNat ascii]
  unfold stepUnit
  rw [read]

/-- A part of a string is read from each of its forms. -/
theorem foldl_part {part : StringPart} {written : List UInt8} (spelled : part.Spelled written)
    (before : Array StringPart) :
    written.foldl step ⟨.string before, tokens⟩ = ⟨.string (before.push part), tokens⟩ := by
  cases spelled with
  | plain plain => exact step_of_plain plain before
  | @letter letter meant known =>
    have each : ∀ pair ∈ letters,
        pair.1.toNat < 0x80 ∧ pair.1 ≠ 'u' ∧ escaped? pair.1 = some pair.2 := by decide
    obtain ⟨small, noUnit, stands⟩ := each _ known
    exact run_letter small noUnit stands before
  | @unit digits value number four =>
    have several (digits : List Char) (value : Nat) (number : HexDigits digits value)
        (few : digits.length < 4) : run ⟨.escape before, tokens⟩ ('u' :: digits) =
          ⟨.unit before (4 - digits.length) value, tokens⟩ := by
      induction number with
      | nil => rfl
      | @snoc digits value number digit _ read ih =>
        rw [List.length_append, List.length_singleton] at few
        rw [← List.cons_append, run_append, ih (by omega), run_hexDigit _ _ _ read,
          if_neg (by omega), List.length_append, List.length_singleton, Nat.sub_sub]
    cases number with
    | nil => cases four
    | @snoc digits value number digit initial read =>
      rw [List.length_append, List.length_singleton] at four
      show run _ ('\\' :: 'u' :: (digits ++ [digit])) = _
      rw [run_backslash, ← List.cons_append, run_append, several digits value initial (by omega),
        run_hexDigit _ _ _ read, if_pos (by omega)]

/-- Parts of a string are read in their order. -/
theorem foldl_parts {parts : List StringPart} {written : List UInt8}
    (spelled : AllSpelled parts written) :
    written.foldl step ⟨.string #[], tokens⟩ = ⟨.string parts.toArray, tokens⟩ := by
  induction spelled with
  | nil => rfl
  | snoc _ part ih => rw [List.foldl_append, ih, foldl_part part, List.push_toArray]

/-- A string is read as the token that holds its text, if it stands for one. -/
theorem foldl_string {parts : List StringPart} {written : List UInt8}
    (spelled : AllSpelled parts written) :
    (written ++ [Token.quote]).foldl step ⟨.string #[], tokens⟩ =
      ⟨.between, tokens.push (.string ((decode parts).map String.ofList))⟩ := by
  rw [List.foldl_append, foldl_parts spelled]
  rfl

/-- A quoted text is read as the token that holds it. -/
theorem run_encode (tokens : List Token) (text : String) :
    run ⟨.between, tokens.toArray⟩ (Quoted.encode text.toList) =
      ⟨.between, (tokens ++ [Token.string (some text)]).toArray⟩ := by
  obtain ⟨parts, spelled, decoded⟩ := textSpelled_escaped text.toList
  have stands : decode parts = some text.toList := by
    rw [← List.append_nil parts, decoded, show decode [] = some [] from rfl, Option.map_some,
      List.append_nil]
  have quote : octets ['"'] = [Token.quote] := rfl
  unfold Quoted.encode
  rw [run_cons, run_between _ (by decide), run, octets_append, quote]
  refine (foldl_string spelled).trans ?_
  rw [stands, Option.map_some, String.ofList_toList, List.push_toArray]

end Lexer

end Disassembler.Json
