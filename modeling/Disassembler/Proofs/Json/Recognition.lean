import Disassembler.Proofs.Json.Scanning

/-!
# Texts that are cut without a fault

In each of its states the machine knows which tokens are complete, and what has been written of the
next one. Each byte keeps this, so a text that is cut without a fault is written by the rules, in
the tokens that it is cut into.
-/

namespace Disassembler.Json

open StringPart

namespace Lexer

/-- What the machine has read when it is in a state. -/
inductive Has : Lexer → List UInt8 → Prop where
  /-- Between tokens it has read those that are complete. -/
  | between {tokens : Array Token} {bytes : List UInt8} : Token.Written tokens.toList bytes →
      Has ⟨.between, tokens⟩ bytes
  /-- Inside a word it has read the first characters of the word too. -/
  | word {tokens : Array Token} {before : List UInt8} {token : Token} {first rest : List Char} :
      Token.Written tokens.toList before → (token, first ++ rest) ∈ Token.words →
      Has ⟨.word rest token, tokens⟩ (before ++ octets first)
  /-- Inside a number it has read the number up to a stage. -/
  | number {tokens : Array Token} {before : List UInt8} {stage : NumberStage} {numeral : Numeral}
      {text : List Char} : Token.Written tokens.toList before → Numeral.Begun stage numeral text →
      Has ⟨.number stage numeral, tokens⟩ (before ++ octets text)
  /-- Inside a string it has read the quotation mark and parts of the string. -/
  | string {tokens : Array Token} {before bytes : List UInt8} {parts : Array StringPart} :
      Token.Written tokens.toList before → AllSpelled parts.toList bytes →
      Has ⟨.string parts, tokens⟩ (before ++ Token.quote :: bytes)
  /-- Behind a backslash it has read the backslash too. -/
  | escape {tokens : Array Token} {before bytes : List UInt8} {parts : Array StringPart} :
      Token.Written tokens.toList before → AllSpelled parts.toList bytes →
      Has ⟨.escape parts, tokens⟩ (before ++ Token.quote :: bytes ++ octets ['\\'])
  /-- Inside a unit it has read its first digits too. -/
  | unit {tokens : Array Token} {before bytes : List UInt8} {parts : Array StringPart}
      {missing value : Nat} {digits : List Char} : Token.Written tokens.toList before →
      AllSpelled parts.toList bytes → HexDigits digits value → digits.length + missing = 4 →
      0 < missing → Has ⟨.unit parts missing value, tokens⟩
        (before ++ Token.quote :: bytes ++ octets ('\\' :: 'u' :: digits))
  /-- Behind a fault it has read anything. -/
  | broken {tokens : Array Token} {bytes : List UInt8} : .fault ∈ tokens.toList →
      Has ⟨.broken, tokens⟩ bytes

variable {tokens : Array Token} {before bytes : List UInt8} {parts : Array StringPart}
  {byte : UInt8} {c : Char}

/-- A byte that is compared as a character of one byte is the byte of that character. -/
theorem octets_character (same : character byte = c) (small : c.toNat < 0x80) :
    [byte] = octets [c] := by
  rw [octets_singleton small, ← same, toNat_character, UInt8.ofNat_toNat]

/-- A machine that gives up has met a fault. -/
theorem has_fail : Has (fail tokens) bytes := by
  apply Has.broken
  rw [Array.toList_push]
  exact List.mem_append_right _ (List.mem_singleton_self _)

/-- A machine behind a token has read it. -/
theorem has_emit {token : Token} {written : List UInt8}
    (before : Token.Written tokens.toList bytes) (spelled : token.Spelled written) :
    Has (emit tokens token) (bytes ++ written) := by
  apply Has.between
  rw [Array.toList_push]
  exact before.token spelled

/-- A blank is one of the bytes that separate tokens. -/
theorem mem_blanks (same : character byte = c) (blank : isBlank c = true) :
    byte ∈ Token.blanks := by
  have number := toNat_character byte
  have value : byte = UInt8.ofNat c.toNat := by
    rw [← same, number, UInt8.ofNat_toNat]
  unfold isBlank at blank
  simp only [Bool.or_eq_true, beq_iff_eq] at blank
  rcases blank with ((rfl | rfl) | rfl) | rfl <;> rw [value] <;> decide

/-- A character that is a token by itself is read as that. -/
theorem has_mark (written : Token.Written tokens.toList bytes) {token : Token}
    (same : character byte = c) (known : (token, c) ∈ Token.marks) :
    Has (emit tokens token) (bytes ++ [byte]) := by
  have small : ∀ pair ∈ Token.marks, pair.2.toNat < 0x80 := by decide
  rw [octets_character same (small _ known)]
  exact has_emit written (.mark known)

/-- The first letter of a word is read as such. -/
theorem has_letter (written : Token.Written tokens.toList bytes) {token : Token} {rest : List Char}
    (same : character byte = c) (known : (token, [c] ++ rest) ∈ Token.words)
    (small : c.toNat < 0x80) : Has ⟨.word rest token, tokens⟩ (bytes ++ [byte]) := by
  rw [octets_character same small]
  exact .word written known

/-- The first digit of a number without a sign is read as such. -/
theorem has_digit (written : Token.Written tokens.toList bytes) {stage : NumberStage}
    {numeral : Numeral} (same : character byte = c)
    (next : NumberStage.sign.next? {} c = some (stage, numeral)) :
    Has ⟨.number stage numeral, tokens⟩ (bytes ++ [byte]) := by
  rw [octets_character same (Numeral.small_of_next? next)]
  refine .number written ?_
  unfold NumberStage.next? at next
  cases read : NumberStage.digit? c with
  | none =>
    rw [read] at next
    cases next
  | some digit =>
    obtain ⟨small, rfl⟩ := Numeral.eq_digitChar_of_digit? read
    rw [read] at next
    cases next
    exact Numeral.begun_of_digit false small

/-- The first byte of a token is read as such. -/
theorem has_start (written : Token.Written tokens.toList bytes) (byte : UInt8) :
    Has (start tokens (character byte)) (bytes ++ [byte]) := by
  generalize same : character byte = c
  unfold start
  by_cases blank : isBlank c = true
  · rw [if_pos blank]
    exact .between (written.blank (mem_blanks same blank))
  rw [if_neg blank]
  by_cases openArray : c = '['
  · rw [if_pos openArray]
    exact has_mark written (same.trans openArray) (by decide)
  rw [if_neg openArray]
  by_cases closeArray : c = ']'
  · rw [if_pos closeArray]
    exact has_mark written (same.trans closeArray) (by decide)
  rw [if_neg closeArray]
  by_cases openObject : c = '{'
  · rw [if_pos openObject]
    exact has_mark written (same.trans openObject) (by decide)
  rw [if_neg openObject]
  by_cases closeObject : c = '}'
  · rw [if_pos closeObject]
    exact has_mark written (same.trans closeObject) (by decide)
  rw [if_neg closeObject]
  by_cases comma : c = ','
  · rw [if_pos comma]
    exact has_mark written (same.trans comma) (by decide)
  rw [if_neg comma]
  by_cases colon : c = ':'
  · rw [if_pos colon]
    exact has_mark written (same.trans colon) (by decide)
  rw [if_neg colon]
  by_cases quote : c = '"'
  · rw [if_pos quote]
    rw [octets_character (same.trans quote) (by decide)]
    exact .string written .nil
  rw [if_neg quote]
  by_cases letter : c = 't'
  · rw [if_pos letter]
    exact has_letter written (same.trans letter) (by decide) (by decide)
  rw [if_neg letter]
  by_cases letter : c = 'f'
  · rw [if_pos letter]
    exact has_letter written (same.trans letter) (by decide) (by decide)
  rw [if_neg letter]
  by_cases letter : c = 'n'
  · rw [if_pos letter]
    exact has_letter written (same.trans letter) (by decide) (by decide)
  rw [if_neg letter]
  by_cases minus : c = '-'
  · rw [if_pos minus]
    rw [octets_character (same.trans minus) (by decide)]
    exact .number written .sign
  rw [if_neg minus]
  cases next : NumberStage.sign.next? {} c with
  | none => exact has_fail
  | some following => exact has_digit written same next

/-- A byte inside a word is read as its next character. -/
theorem has_word {token : Token} {first rest : List Char}
    (written : Token.Written tokens.toList before) (known : (token, first ++ rest) ∈ Token.words)
    (byte : UInt8) :
    Has (stepWord tokens token (character byte) rest) (before ++ octets first ++ [byte]) := by
  have ascii : ∀ pair ∈ Token.words, (pair.2.all fun c => c.toNat < 0x80) = true := by decide
  have extended {c : Char} {rest : List Char} (same : character byte = c)
      (known : (token, first ++ c :: rest) ∈ Token.words) :
      octets first ++ [byte] = octets (first ++ [c]) := by
    have small := List.all_eq_true.mp (ascii _ known) c
      (List.mem_append_right _ List.mem_cons_self)
    rw [octets_character same (of_decide_eq_true small), octets_append]
  rw [List.append_assoc]
  match rest, known with
  | [], _ => exact has_fail
  | [last], known =>
    rw [stepWord]
    by_cases same : character byte = last
    · rw [if_pos same, extended same known]
      exact has_emit written (.word known)
    · rw [if_neg same]
      exact has_fail
  | head :: second :: rest, known =>
    change Has (if character byte = head then ⟨.word (second :: rest) token, tokens⟩
      else fail tokens) _
    by_cases same : character byte = head
    · rw [if_pos same, extended same known]
      rw [List.append_cons] at known
      exact .word written known
    · rw [if_neg same]
      exact has_fail

/-- A byte inside a number goes on with it, or ends it. -/
theorem has_number {stage : NumberStage} {numeral : Numeral} {text : List Char}
    (written : Token.Written tokens.toList before) (begun : Numeral.Begun stage numeral text)
    (byte : UInt8) :
    Has (stepNumber tokens stage numeral (character byte)) (before ++ octets text ++ [byte]) := by
  unfold stepNumber
  cases next : stage.next? numeral (character byte) with
  | some following =>
    rw [List.append_assoc, octets_character rfl (Numeral.small_of_next? next), ← octets_append]
    exact .number written (begun.next next)
  | none =>
    simp only
    split
    · rename_i ends
      apply has_start
      rw [Array.toList_push]
      exact written.token (.number (begun.spelled ends.1))
    · exact has_fail

/-- A byte inside a string stands for itself, starts an escape or ends the string. -/
theorem has_string (written : Token.Written tokens.toList before)
    (spelled : AllSpelled parts.toList bytes) (byte : UInt8) :
    Has (stepString tokens parts byte (character byte))
      (before ++ Token.quote :: bytes ++ [byte]) := by
  have number := toNat_character byte
  unfold stepString
  by_cases quote : character byte = '"'
  · have same : byte = Token.quote := by
      rw [← UInt8.ofNat_toNat (x := byte), ← number, quote]
      rfl
    rw [if_pos quote, same, List.append_assoc]
    exact has_emit written (.string spelled)
  rw [if_neg quote]
  by_cases backslash : character byte = '\\'
  · rw [if_pos backslash, octets_character backslash (by decide)]
    exact .escape written spelled
  rw [if_neg backslash]
  by_cases control : (character byte).toNat < 0x20
  · rw [if_pos control]
    exact has_fail
  rw [if_neg control, List.append_assoc, List.cons_append]
  have plain : Plain byte := by
    refine ⟨by omega, fun same => quote ?_, fun same => backslash ?_⟩
    · exact Char.toNat_inj.mp (number.trans same)
    · exact Char.toNat_inj.mp (number.trans same)
  refine .string written ?_
  rw [Array.toList_push]
  exact spelled.snoc (.plain plain)

/-- The letters that stand for characters are those of the rules. -/
theorem mem_letters {letter meant : Char} (stands : escaped? letter = some meant) :
    (letter, meant) ∈ letters := by
  unfold escaped? at stands
  split at stands
  · rename_i itself
    cases stands
    rcases itself with rfl | rfl | rfl <;> decide
  split at stands
  · rename_i same
    subst same
    cases stands
    decide
  split at stands
  · rename_i same
    subst same
    cases stands
    decide
  split at stands
  · rename_i same
    subst same
    cases stands
    decide
  split at stands
  · rename_i same
    subst same
    cases stands
    decide
  split at stands
  · rename_i same
    subst same
    cases stands
    decide
  cases stands

/-- A byte behind a backslash is a letter that stands for a character, or that of units. -/
theorem has_escape (written : Token.Written tokens.toList before)
    (spelled : AllSpelled parts.toList bytes) (byte : UInt8) :
    Has (stepEscape tokens parts (character byte))
      (before ++ Token.quote :: bytes ++ octets ['\\'] ++ [byte]) := by
  unfold stepEscape
  by_cases unit : character byte = 'u'
  · rw [if_pos unit, octets_character unit (by decide), List.append_assoc, ← octets_append]
    exact .unit written spelled .nil rfl (by decide)
  rw [if_neg unit]
  cases stands : escaped? (character byte) with
  | none => exact has_fail
  | some meant =>
    have known := mem_letters stands
    have ascii : ∀ pair ∈ letters, pair.1.toNat < 0x80 := by decide
    rw [octets_character rfl (ascii _ known), List.append_assoc _ (octets _), ← octets_append,
      List.append_assoc, List.cons_append]
    refine .string written ?_
    rw [Array.toList_push]
    exact spelled.snoc (.letter known)

/-- A byte inside a unit is its next digit. -/
theorem has_unit {missing value : Nat} {digits : List Char}
    (written : Token.Written tokens.toList before) (spelled : AllSpelled parts.toList bytes)
    (number : HexDigits digits value) (four : digits.length + missing = 4) (some : 0 < missing)
    (byte : UInt8) :
    Has (stepUnit tokens parts missing value (character byte))
      (before ++ Token.quote :: bytes ++ octets ('\\' :: 'u' :: digits) ++ [byte]) := by
  unfold stepUnit
  cases read : Text.Hex.value? (character byte) with
  | none => exact has_fail
  | some digit =>
    have extended := number.snoc read
    rw [octets_character rfl (small_of_value? read), List.append_assoc _ (octets _),
      ← octets_append, List.cons_append, List.cons_append]
    simp only
    split
    · rename_i last
      rw [List.append_assoc, List.cons_append]
      refine .string written ?_
      rw [Array.toList_push]
      refine spelled.snoc (.unit extended ?_)
      rw [List.length_append, List.length_singleton]
      omega
    · rename_i more
      refine .unit written spelled extended ?_ (by omega)
      rw [List.length_append, List.length_singleton]
      omega

/-- Each byte keeps what the machine has read. -/
theorem Has.step {lexer : Lexer} (has : lexer.Has bytes) (byte : UInt8) :
    (lexer.step byte).Has (bytes ++ [byte]) := by
  cases has with
  | between written => exact has_start written byte
  | word written known => exact has_word written known byte
  | number written begun => exact has_number written begun byte
  | string written spelled => exact has_string written spelled byte
  | escape written spelled => exact has_escape written spelled byte
  | unit written spelled number four some =>
    exact has_unit written spelled number four some byte
  | broken fault => exact .broken fault

/-- What the machine has read at the end of a text is the text. -/
theorem has_foldl (bytes : List UInt8) : (bytes.foldl step {}).Has bytes := by
  have behind (lexer : Lexer) (before : List UInt8) (has : lexer.Has before) :
      (bytes.foldl Lexer.step lexer).Has (before ++ bytes) := by
    induction bytes generalizing lexer before with
    | nil =>
      rw [List.append_nil]
      exact has
    | cons byte rest ih =>
      rw [List.append_cons]
      exact ih _ _ (has.step byte)
  exact behind {} [] (.between .nil)

/-- At the end of what the machine has read there is a fault, or it is written in the tokens. -/
theorem Has.finish {lexer : Lexer} (has : lexer.Has bytes) (sound : .fault ∉ lexer.finish) :
    Token.Written lexer.finish bytes := by
  cases has with
  | between written => exact written
  | @number tokens before stage numeral text written begun =>
    cases complete : stage.isComplete with
    | true =>
      simp only [Lexer.finish, complete, ↓reduceIte, Array.toList_push]
      exact written.token (.number (begun.spelled complete))
    | false =>
      simp [Lexer.finish, complete] at sound
  | broken fault => exact absurd fault sound
  | word _ _ | string _ _ | escape _ _ | unit _ _ _ _ _ => simp [Lexer.finish] at sound

end Lexer

/-- A text in which no two numbers follow each other is cut into the tokens that it is written
in. -/
theorem Token.ofBytes_of_written {tokens : List Token} {bytes : List UInt8}
    (written : Token.Written tokens bytes) (apart : tokens.IsChain Lexer.Apart) :
    Token.ofBytes bytes = tokens :=
  (Lexer.stands_of_written written apart).finish

/-- A text that is cut without a fault is written in its tokens. -/
theorem Token.written_of_ofBytes {bytes : List UInt8} (sound : .fault ∉ Token.ofBytes bytes) :
    Token.Written (Token.ofBytes bytes) bytes :=
  (Lexer.has_foldl bytes).finish sound

end Disassembler.Json
