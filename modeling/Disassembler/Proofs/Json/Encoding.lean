import Disassembler.Json.StringPart

/-!
# Bytes of characters

A character is written in UTF-8, as one byte to four. The parts of a string that are these bytes
stand for the character again, whatever follows them. So does a unit with the character's code
point, unless the code point is beyond the units or is that of a surrogate.
-/

namespace Disassembler.Json

/-- The bytes of a text in UTF-8. -/
def octets (text : List Char) : List UInt8 := text.flatMap String.utf8EncodeChar

/-- Listing the bytes of an array from a place on puts them behind those that were listed. -/
theorem toList_loop_eq (bytes : ByteArray) (place : Nat) (listed : List UInt8) :
    ByteArray.toList.loop bytes place listed =
      listed.reverse ++ bytes.data.toList.drop place := by
  fun_induction ByteArray.toList.loop bytes place listed with
  | case1 place listed inside ih =>
    have bound : place < bytes.data.toList.length := by
      rw [Array.length_toList]
      exact inside
    have byte : bytes.get! place = bytes.data.toList[place] := getElem!_pos bytes.data place inside
    rw [ih, List.drop_eq_getElem_cons bound, List.reverse_cons, List.append_assoc, byte]
    rfl
  | case2 place listed outside =>
    have bound : bytes.data.toList.length ≤ place := by
      rw [Array.length_toList]
      exact Nat.le_of_not_lt outside
    rw [List.drop_eq_nil_of_le bound, List.append_nil]

/-- The bytes of a text are those of the string that holds it. -/
theorem toUTF8_ofList (text : List Char) : (String.ofList text).toUTF8.toList = octets text := by
  rw [ByteArray.toList, toList_loop_eq]
  show (String.ofList text).toByteArray.data.toList = _
  rw [String.toByteArray_ofList, List.utf8Encode, List.data_toByteArray]
  rfl

/-- The bytes of two texts follow each other. -/
theorem octets_append (first second : List Char) :
    octets (first ++ second) = octets first ++ octets second := List.flatMap_append

/-- The bytes of a character come before those of the rest of a text. -/
theorem octets_cons (c : Char) (rest : List Char) :
    octets (c :: rest) = String.utf8EncodeChar c ++ octets rest := List.flatMap_cons

/-- A character below 128 is one byte. -/
theorem octets_singleton {c : Char} (small : c.toNat < 0x80) :
    octets [c] = [UInt8.ofNat c.toNat] := by
  have value : c.val.toNat = c.toNat := rfl
  unfold octets
  rw [List.flatMap_cons, List.flatMap_nil, List.append_nil]
  unfold String.utf8EncodeChar
  simp only [value]
  rw [if_pos (by omega)]

namespace StringPart

/-- The code point of a character stands for it, unless a larger one is needed. -/
theorem character?_toNat {least : Nat} {c : Char} (large : least ≤ c.toNat) :
    character? least c.toNat = some c := by
  unfold character?
  rw [if_pos ⟨large, c.valid⟩, Char.ofNat_toNat]

/-- A number below 256 is that of its byte. -/
theorem toNat_ofNat {value : Nat} (small : value < 256) : (UInt8.ofNat value).toNat = value := by
  rw [UInt8.toNat_ofNat']
  exact Nat.mod_eq_of_lt small

/-- A byte of which the high bits say so continues a character with its six low bits. -/
theorem continuation {value : Nat} (small : value < 64) :
    isContinuation (UInt8.ofNat (value + 128)) = true ∧
      payload (UInt8.ofNat (value + 128)) = value := by
  unfold isContinuation payload
  rw [toNat_ofNat (by omega)]
  constructor
  · rw [beq_iff_eq]
    omega
  · omega

/-- The bytes of a character stand for it. -/
theorem decode_octets (c : Char) (rest : List StringPart) :
    decode ((String.utf8EncodeChar c).map .byte ++ rest) = prepend (some c) (decode rest) := by
  have value : c.val.toNat = c.toNat := rfl
  have limit : c.toNat < 0x110000 := by
    have valid := c.valid
    unfold UInt32.isValidChar Nat.isValidChar at valid
    omega
  unfold String.utf8EncodeChar
  simp only [value]
  split
  · rename_i one
    rw [List.map_singleton, List.singleton_append, decode.eq_def]
    simp only [toNat_ofNat (by omega : c.toNat < 256)]
    rw [if_pos (by omega), character?_toNat (Nat.zero_le _)]
  split
  · rename_i two
    obtain ⟨continues, low⟩ := continuation (Nat.mod_lt c.toNat (by decide : 0 < 64))
    have code : (c.toNat / 64 % 32 + 192 - 0xc0) * 0x40 + c.toNat % 64 = c.toNat := by omega
    simp only [List.map_cons, List.map_nil, List.cons_append, List.nil_append]
    rw [decode.eq_def]
    simp only [continues, low, toNat_ofNat (by omega : c.toNat / 64 % 32 + 192 < 256)]
    rw [if_neg (by omega), if_neg (by decide), if_pos (by omega), code,
      character?_toNat (by omega)]
  split
  · rename_i three
    obtain ⟨continues, low⟩ := continuation (Nat.mod_lt c.toNat (by decide : 0 < 64))
    obtain ⟨continues', middle⟩ := continuation (Nat.mod_lt (c.toNat / 64) (by decide : 0 < 64))
    have code : ((c.toNat / 4096 % 16 + 224 - 0xe0) * 0x40 + c.toNat / 64 % 64) * 0x40 +
        c.toNat % 64 = c.toNat := by omega
    simp only [List.map_cons, List.map_nil, List.cons_append, List.nil_append]
    rw [decode.eq_def]
    simp only [continues, low, continues', middle,
      toNat_ofNat (by omega : c.toNat / 4096 % 16 + 224 < 256)]
    rw [if_neg (by omega), if_neg (by decide), if_neg (by omega), if_neg (by decide),
      if_pos (by omega), code, character?_toNat (by omega)]
  · obtain ⟨continues, low⟩ := continuation (Nat.mod_lt c.toNat (by decide : 0 < 64))
    obtain ⟨continues', middle⟩ := continuation (Nat.mod_lt (c.toNat / 64) (by decide : 0 < 64))
    obtain ⟨continues'', high⟩ := continuation (Nat.mod_lt (c.toNat / 4096) (by decide : 0 < 64))
    have code : (((c.toNat / 262144 % 8 + 240 - 0xf0) * 0x40 + c.toNat / 4096 % 64) * 0x40 +
        c.toNat / 64 % 64) * 0x40 + c.toNat % 64 = c.toNat := by omega
    simp only [List.map_cons, List.map_nil, List.cons_append, List.nil_append]
    rw [decode.eq_def]
    simp only [continues, low, continues', middle, continues'', high,
      toNat_ofNat (by omega : c.toNat / 262144 % 8 + 240 < 256)]
    rw [if_neg (by omega), if_neg (by decide), if_neg (by omega), if_neg (by decide),
      if_neg (by omega), if_neg (by decide), if_pos (by omega), code,
      character?_toNat (by omega)]

/-- A unit stands for the character with its code point, which is no surrogate. -/
theorem decode_unit (c : Char) (rest : List StringPart) :
    decode (.unit c.toNat :: rest) = prepend (some c) (decode rest) := by
  have single : isLeading c.toNat = false := by
    have valid : c.toNat.isValidChar := c.valid
    unfold Nat.isValidChar at valid
    unfold isLeading
    rw [Bool.and_eq_false_iff, decide_eq_false_iff_not, decide_eq_false_iff_not]
    omega
  rw [decode.eq_def]
  simp only [single, Bool.false_eq_true, ↓reduceIte, character?_toNat (Nat.zero_le _)]

end StringPart

end Disassembler.Json
