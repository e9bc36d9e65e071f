import Disassembler.Proofs.Decimal.Shortest
import Mathlib.Data.List.DropRight

/-!
# Plain decimal numerals

A plain numeral is a text of a sign, of digits and perhaps of a point and of decimal places. It has
no exponent, no zero before other digits of its whole part and no zero at the end of its places, so
a whole number has no places. The text gives back its parts. The plain text of a decimal whose
digits do not end with a zero is such a numeral: its significant digits are those of the decimal,
and the zeros beside them only fill its places.
-/

namespace Disassembler

/-- A decimal numeral without an exponent. -/
@[ext]
structure PlainNumeral where
  /-- Whether there is a minus sign. -/
  negative : Bool
  /-- The digits before the point. -/
  whole : List Char
  /-- The digits behind the point. Without any there is no point. -/
  places : List Char
  /-- There are digits only. -/
  isDigit : ∀ c ∈ whole ++ places, c.isDigit = true
  /-- There is a digit before the point. -/
  whole_ne_nil : whole ≠ []
  /-- A zero that comes first is the only digit before the point. -/
  leading : ∀ rest, whole = '0' :: rest → rest = []
  /-- The last place is not a zero. -/
  trailing : ∀ front, places ≠ front ++ ['0']

namespace PlainNumeral

/-- A text with a minus sign before it, or without one. -/
def signed (negative : Bool) (text : List Char) : List Char :=
  (if negative then ['-'] else []) ++ text

/-- A sign and a text that has none are told by the characters of both. -/
theorem signed_inj {negative negative' : Bool} {text text' : List Char}
    (plain : text.head? ≠ some '-') (plain' : text'.head? ≠ some '-')
    (same : signed negative text = signed negative' text') :
    negative = negative' ∧ text = text' := by
  have signs : negative = negative' := by
    cases negative <;> cases negative'
    · rfl
    · exact absurd (congrArg List.head? (show text = '-' :: text' from same)) plain
    · exact absurd (congrArg List.head? (show text' = '-' :: text from same.symm)) plain'
    · rfl
  subst signs
  exact ⟨rfl, List.append_cancel_left same⟩

/-- The characters of a numeral behind its sign. -/
def unsigned (numeral : PlainNumeral) : List Char :=
  numeral.whole ++ if numeral.places = [] then [] else '.' :: numeral.places

/-- The characters of a numeral. -/
def characters (numeral : PlainNumeral) : List Char := signed numeral.negative numeral.unsigned

/-- The text of a numeral. -/
def text (numeral : PlainNumeral) : String := String.ofList numeral.characters

/-- The number of a numeral without its sign. -/
def magnitude (numeral : PlainNumeral) : ℚ :=
  Nat.ofDigitChars 10 (numeral.whole ++ numeral.places) 0 / 10 ^ numeral.places.length

/-- The digits of a numeral without the zeros before its first other digit and behind its last
one. -/
def significantDigits (numeral : PlainNumeral) : List Char :=
  ((numeral.whole ++ numeral.places).dropWhile (· == '0')).rdropWhile (· == '0')

variable {numeral numeral' : PlainNumeral}

/-- The first digits of a numeral are those of its whole part. -/
theorem takeWhile_unsigned (numeral : PlainNumeral) :
    numeral.unsigned.takeWhile Char.isDigit = numeral.whole := by
  unfold unsigned
  rw [List.takeWhile_append_of_pos fun c among => numeral.isDigit c (List.mem_append_left _ among)]
  split
  · exact List.append_nil _
  · exact List.append_nil _

/-- Behind its sign a numeral starts with a digit. -/
theorem head?_unsigned (numeral : PlainNumeral) :
    ∃ first, numeral.unsigned.head? = some first ∧ first.isDigit = true := by
  have whole := numeral.takeWhile_unsigned
  cases starts : numeral.unsigned with
  | nil =>
    rw [starts] at whole
    exact absurd whole.symm numeral.whole_ne_nil
  | cons first rest =>
    refine ⟨first, rfl, ?_⟩
    by_contra other
    rw [starts, List.takeWhile_cons_of_neg other] at whole
    exact numeral.whole_ne_nil whole.symm

/-- Behind its sign a numeral does not start with anything but a digit. -/
theorem head?_unsigned_ne (numeral : PlainNumeral) {first : Char} (other : first.isDigit = false) :
    numeral.unsigned.head? ≠ some first := by
  obtain ⟨digit, starts, isDigit⟩ := numeral.head?_unsigned
  intro first
  rw [starts] at first
  cases first
  rw [isDigit] at other
  cases other

/-- The characters behind the sign give back the parts of a numeral. -/
theorem unsigned_inj (same : numeral.unsigned = numeral'.unsigned) :
    numeral.whole = numeral'.whole ∧ numeral.places = numeral'.places := by
  have whole : numeral.whole = numeral'.whole := by
    rw [← numeral.takeWhile_unsigned, same, numeral'.takeWhile_unsigned]
  refine ⟨whole, ?_⟩
  unfold unsigned at same
  rw [whole] at same
  have behind := List.append_cancel_left same
  split at behind
  · rename_i none
    split at behind
    · rename_i none'
      rw [none, none']
    · cases behind
  · split at behind
    · cases behind
    · exact (List.cons.inj behind).2

/-- The characters of a numeral are those of no other numeral. -/
theorem characters_inj : numeral.characters = numeral'.characters ↔ numeral = numeral' := by
  refine ⟨fun same => ?_, congrArg _⟩
  obtain ⟨signs, texts⟩ :=
    signed_inj (numeral.head?_unsigned_ne rfl) (numeral'.head?_unsigned_ne rfl) same
  obtain ⟨whole, places⟩ := unsigned_inj texts
  exact PlainNumeral.ext signs whole places

/-- A number is whole exactly if its numeral has no places. -/
theorem places_eq_nil_iff : numeral.places = [] ↔ ∃ number : Nat, numeral.magnitude = number := by
  unfold magnitude
  constructor
  · intro none
    exact ⟨_, by rw [none, List.length_nil, pow_zero, div_one]⟩
  · rintro ⟨number, whole⟩
    obtain none | ⟨front, last, some⟩ := numeral.places.eq_nil_or_concat'
    · exact none
    · -- The last place would be the last digit of a multiple of ten.
      exfalso
      have digit := numeral.isDigit last (by simp [some])
      have nonzero : last ≠ '0' := fun zero => numeral.trailing front (by rw [some, zero])
      rw [div_eq_iff (by positivity), some, ← List.append_assoc, Nat.ofDigitChars_append,
        List.length_append, List.length_singleton, pow_succ] at whole
      have tens : 10 * Nat.ofDigitChars 10 (numeral.whole ++ front) 0 + (last.toNat - '0'.toNat) =
          number * (10 ^ front.length * 10) := by exact_mod_cast whole
      have bounds := Char.isDigit_iff_toNat.mp digit
      have least : '0'.toNat ≠ last.toNat := fun same => nonzero (Char.toNat_inj.mp same.symm)
      simp only [Char.reduceToNat, ← Nat.mul_assoc] at tens bounds least
      omega

/-- The numeral of some digits, the last of which are its places. -/
def ofDigits (negative : Bool) (digits : List Char) (places : Nat)
    (isDigit : ∀ c ∈ digits, c.isDigit = true) (fits : places < digits.length)
    (leading : ∀ rest, digits = '0' :: rest → rest.length = places)
    (trailing : 0 < places → ∀ front, digits ≠ front ++ ['0']) : PlainNumeral where
  negative := negative
  whole := digits.take (digits.length - places)
  places := digits.drop (digits.length - places)
  isDigit := by rwa [List.take_append_drop]
  whole_ne_nil := by
    rw [← List.length_pos_iff, List.length_take]
    omega
  leading := by
    intro rest starts
    have taken := congrArg List.length starts
    rw [List.length_take, List.length_cons] at taken
    obtain ⟨behind, all⟩ : ∃ behind, digits = '0' :: behind :=
      ⟨rest ++ digits.drop (digits.length - places), by
        rw [← List.cons_append, ← starts, List.take_append_drop]⟩
    have count := leading behind all
    rw [all, List.length_cons, count] at taken
    exact List.eq_nil_of_length_eq_zero (by omega)
  trailing := by
    intro front stops
    have dropped := congrArg List.length stops
    rw [List.length_drop, List.length_append, List.length_singleton] at dropped
    refine trailing (by omega) (digits.take (digits.length - places) ++ front) ?_
    rw [List.append_assoc, ← stops, List.take_append_drop]

section OfDigits

variable {negative : Bool} {digits : List Char} {places : Nat}
  {isDigit : ∀ c ∈ digits, c.isDigit = true} {fits : places < digits.length}
  {leading : ∀ rest, digits = '0' :: rest → rest.length = places}
  {trailing : 0 < places → ∀ front, digits ≠ front ++ ['0']}

/-- The number of a numeral of some digits. -/
theorem magnitude_ofDigits :
    (ofDigits negative digits places isDigit fits leading trailing).magnitude =
      Nat.ofDigitChars 10 digits 0 / 10 ^ places := by
  have count : digits.length - (digits.length - places) = places := by omega
  unfold magnitude ofDigits
  simp only [List.take_append_drop, List.length_drop, count]

/-- The significant digits of a numeral of some digits are among these. -/
theorem significantDigits_ofDigits :
    (ofDigits negative digits places isDigit fits leading trailing).significantDigits =
      (digits.dropWhile (· == '0')).rdropWhile (· == '0') := by
  unfold significantDigits ofDigits
  simp only [List.take_append_drop]

end OfDigits

end PlainNumeral

namespace Decimal

variable {number : Nat}

/-- The digit zero stands for zero only. -/
theorem digitChar_ne_zero (small : number < 10) (positive : 0 < number) :
    Nat.digitChar number ≠ '0' := by
  intro zero
  have code : 48 + number = 48 := (Nat.toNat_digitChar_of_lt_ten small) ▸ congrArg Char.toNat zero
  omega

/-- The first digit of a positive number is not zero. -/
theorem toDigits_eq_cons (positive : 0 < number) :
    ∃ first rest, Nat.toDigits 10 number = first :: rest ∧ first ≠ '0' := by
  induction number using Nat.strong_induction_on with
  | _ number ih =>
    obtain small | large : number < 10 ∨ 10 ≤ number := by omega
    · exact ⟨_, [], Nat.toDigits_of_lt_base small, digitChar_ne_zero small positive⟩
    · obtain ⟨first, rest, leads, nonzero⟩ := ih (number / 10) (by omega) (by omega)
      rw [Nat.toDigits_of_base_le (by decide) large, leads]
      exact ⟨first, _, rfl, nonzero⟩

/-- The last digit of a number that is not a multiple of ten is not zero. -/
theorem toDigits_eq_append (nonzero : number % 10 ≠ 0) :
    ∃ front last, Nat.toDigits 10 number = front ++ [last] ∧ last ≠ '0' := by
  have last := digitChar_ne_zero (Nat.mod_lt number (by decide)) (Nat.pos_of_ne_zero nonzero)
  obtain small | large : number < 10 ∨ 10 ≤ number := by omega
  · rw [Nat.mod_eq_of_lt small] at last
    exact ⟨[], _, Nat.toDigits_of_lt_base small, last⟩
  · exact ⟨_, _, Nat.toDigits_of_base_le (by decide) large, last⟩

/-- The number of decimal places of a decimal. -/
def places (decimal : Decimal) : Nat := (-decimal.exponent).toNat

/-- The digits of a decimal with the zeros that its plain text has beside them. -/
def filled (decimal : Decimal) : List Char :=
  zeros (decimal.places + 1 - (Nat.toDigits 10 decimal.digits).length) ++
    Nat.toDigits 10 decimal.digits ++ zeros decimal.exponent.toNat

variable {decimal : Decimal}

/-- With decimal places there are no zeros behind the digits. -/
theorem filled_of_places (some : 0 < decimal.places) :
    decimal.filled = zeros (decimal.places + 1 - (Nat.toDigits 10 decimal.digits).length) ++
      Nat.toDigits 10 decimal.digits := by
  unfold places at some
  have none : decimal.exponent.toNat = 0 := by omega
  rw [filled, none]
  exact List.append_nil _

/-- Without decimal places there are no zeros before the digits. -/
theorem filled_of_no_places (none : decimal.places = 0) :
    decimal.filled = Nat.toDigits 10 decimal.digits ++ zeros decimal.exponent.toNat := by
  have some : 0 < (Nat.toDigits 10 decimal.digits).length := Nat.length_toDigits_pos
  have nothing : decimal.places + 1 - (Nat.toDigits 10 decimal.digits).length = 0 := by omega
  rw [filled, nothing]
  rfl

/-- The digits of a decimal and the zeros beside them are digits. -/
theorem isDigit_of_mem_filled {c : Char} (among : c ∈ decimal.filled) : c.isDigit = true := by
  unfold filled zeros at among
  rw [List.mem_append, List.mem_append, List.mem_replicate, List.mem_replicate] at among
  obtain (⟨-, rfl⟩ | among) | ⟨-, rfl⟩ := among
  · rfl
  · exact Nat.isDigit_of_mem_toDigits (by decide) (by decide) among
  · rfl

/-- There is a digit before the places. -/
theorem places_lt_length_filled : decimal.places < decimal.filled.length := by
  unfold filled zeros
  rw [List.length_append, List.length_append, List.length_replicate]
  omega

/-- If a zero comes first, only the places come behind it. -/
theorem length_of_filled_eq_zero_cons (positive : 0 < decimal.digits) {rest : List Char}
    (starts : decimal.filled = '0' :: rest) : rest.length = decimal.places := by
  cases before : decimal.places + 1 - (Nat.toDigits 10 decimal.digits).length with
  | zero =>
    rw [filled, before, zeros, List.replicate_zero, List.nil_append] at starts
    obtain ⟨first, others, digits, nonzero⟩ := toDigits_eq_cons positive
    rw [digits] at starts
    exact absurd (List.cons.inj starts).1 nonzero
  | succ count =>
    have digit : 0 < (Nat.toDigits 10 decimal.digits).length := Nat.length_toDigits_pos
    have total := congrArg List.length (starts.symm.trans (filled_of_places (by omega)))
    rw [List.length_cons, List.length_append, zeros, List.length_replicate] at total
    omega

/-- The last place is not a zero. -/
theorem filled_ne_append_zero (nonzero : decimal.digits % 10 ≠ 0) (some : 0 < decimal.places)
    (front : List Char) : decimal.filled ≠ front ++ ['0'] := by
  intro stops
  rw [filled_of_places some] at stops
  obtain ⟨digits, last, ends, other⟩ := toDigits_eq_append nonzero
  rw [ends, ← List.append_assoc] at stops
  exact other (List.cons.inj (List.append_inj' stops rfl).2).1

/-- The digits of a decimal and the zeros beside them have its number, up to the places. -/
theorem ofDigitChars_filled :
    Nat.ofDigitChars 10 decimal.filled 0 = 10 ^ decimal.exponent.toNat * decimal.digits := by
  rw [filled, zeros, zeros, Nat.ofDigitChars_append, Nat.ofDigitChars_append,
    Nat.ofDigitChars_replicate_zero, Nat.ofDigitChars_replicate_zero, Nat.mul_zero,
    Nat.ofDigitChars_ten_toDigits]

/-- Only the digits of a decimal are left without the zeros beside them. -/
theorem dropZeros_filled (nonzero : decimal.digits % 10 ≠ 0) :
    (decimal.filled.dropWhile (· == '0')).rdropWhile (· == '0') =
      Nat.toDigits 10 decimal.digits := by
  have zero {count : Nat} : ∀ c ∈ zeros count, (c == '0') = true := by
    intro c among
    rw [List.eq_of_mem_replicate among]
    rfl
  have start : decimal.filled.dropWhile (· == '0') =
      Nat.toDigits 10 decimal.digits ++ zeros decimal.exponent.toNat := by
    have positive : 0 < decimal.digits := by omega
    obtain ⟨first, rest, digits, other⟩ := toDigits_eq_cons positive
    rw [filled, List.append_assoc, List.dropWhile_append_of_pos zero, digits, List.cons_append,
      List.dropWhile_cons_of_neg (by rwa [beq_iff_eq])]
  obtain ⟨front, last, digits, other⟩ := toDigits_eq_append nonzero
  rw [start, digits, List.rdropWhile, List.reverse_append, List.reverse_concat,
    List.dropWhile_append_of_pos fun c among => zero c (List.mem_reverse.mp among),
    List.dropWhile_cons_of_neg (by rwa [beq_iff_eq]), List.reverse_cons, List.reverse_reverse]

/-- The plain text of a decimal has a point before its places. -/
theorem plain_eq (decimal : Decimal) :
    decimal.plain = decimal.filled.take (decimal.filled.length - decimal.places) ++
      if decimal.places = 0 then []
      else '.' :: decimal.filled.drop (decimal.filled.length - decimal.places) := by
  unfold plain
  split
  · rename_i nonnegative
    have none : decimal.places = 0 := by
      unfold places
      omega
    rw [none, Nat.sub_zero, List.take_length, if_pos rfl, List.append_nil, filled_of_no_places none]
  · rename_i negative
    have some : 0 < decimal.places := by
      unfold places
      omega
    rw [if_neg some.ne', filled_of_places some]
    rfl

end Decimal

namespace PlainNumeral

variable {negative : Bool} {decimal : Decimal} {nonzero : decimal.digits % 10 ≠ 0}

/-- The numeral of a decimal whose digits do not end with a zero. -/
def ofDecimal (negative : Bool) (decimal : Decimal) (nonzero : decimal.digits % 10 ≠ 0) :
    PlainNumeral :=
  ofDigits negative decimal.filled decimal.places (fun _ => Decimal.isDigit_of_mem_filled)
    Decimal.places_lt_length_filled
    (fun _ => Decimal.length_of_filled_eq_zero_cons (by omega))
    (Decimal.filled_ne_append_zero nonzero)

/-- The characters of the numeral of a decimal are its plain text. -/
theorem unsigned_ofDecimal : (ofDecimal negative decimal nonzero).unsigned = decimal.plain := by
  have fits := decimal.places_lt_length_filled
  have none : decimal.filled.drop (decimal.filled.length - decimal.places) = [] ↔
      decimal.places = 0 := by
    rw [List.drop_eq_nil_iff]
    omega
  rw [Decimal.plain_eq]
  unfold unsigned ofDecimal ofDigits
  simp only [none]

/-- The number of the numeral of a decimal is that of the decimal. -/
theorem magnitude_ofDecimal :
    (ofDecimal negative decimal nonzero).magnitude = decimal.value := by
  have split : (10 : ℚ) ^ decimal.exponent =
      10 ^ decimal.exponent.toNat / 10 ^ (-decimal.exponent).toNat := by
    rw [← zpow_natCast, ← zpow_natCast, ← zpow_sub₀ (by norm_num), Int.toNat_sub_toNat_neg]
  rw [ofDecimal, magnitude_ofDigits, Decimal.ofDigitChars_filled, Decimal.value, Decimal.places,
    split]
  push_cast
  ring

/-- The significant digits of the numeral of a decimal are its digits. -/
theorem significantDigits_ofDecimal :
    (ofDecimal negative decimal nonzero).significantDigits = Nat.toDigits 10 decimal.digits :=
  significantDigits_ofDigits.trans (Decimal.dropZeros_filled nonzero)

/-- The numeral of zero. -/
def zero (negative : Bool) : PlainNumeral where
  negative := negative
  whole := ['0']
  places := []
  isDigit := by simp
  whole_ne_nil := by simp
  leading := by simp
  trailing := by simp

/-- The number of the numeral of zero is zero. -/
theorem magnitude_zero : (zero negative).magnitude = 0 := by
  have digits : Nat.ofDigitChars 10 ['0'] 0 = 0 := rfl
  simp [magnitude, zero, digits]

/-- No digit of the numeral of zero is significant. -/
theorem significantDigits_zero : (zero negative).significantDigits = [] := rfl

end PlainNumeral

end Disassembler
