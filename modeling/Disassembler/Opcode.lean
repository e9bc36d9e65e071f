import Disassembler.Opcode.Table
import Disassembler.Word

/-!
# Opcodes

An opcode is a number below the size of the opcode table. The word that
stands for it in a stream is that number, so a word outside the table stands
for no opcode.
-/

namespace Disassembler

/-- An opcode, known by its number. -/
abbrev Opcode := Fin Opcode.rows.size

namespace Opcode

/-- The row of an opcode in the table. -/
def row (opcode : Opcode) : Row := rows[opcode]

/-- The name of an opcode in a listing. -/
def mnemonic (opcode : Opcode) : String := opcode.row.mnemonic

/-- The operands that follow an opcode. -/
def layout (opcode : Opcode) : Layout := opcode.row.layout

/-- The group of an opcode. -/
def family (opcode : Opcode) : Family := opcode.row.family

/-- The number of opcodes, which is the first word that stands for none. -/
def count : Nat := rows.size

/-- The word that stands for an opcode. -/
def word (opcode : Opcode) : Word := Int32.ofNat opcode.val

/-- The opcode that a word stands for. -/
def ofWord? (word : Word) : Option Opcode :=
  if bounds : 0 ≤ word.toInt ∧ word.toInt.toNat < rows.size then
    some ⟨word.toInt.toNat, bounds.2⟩
  else none

/-- All opcodes, in the order of their numbers. -/
def all : List Opcode := List.finRange rows.size

/-- A word stands for an opcode exactly if it is a number of the table. -/
theorem isSome_ofWord?_iff {word : Word} :
    (ofWord? word).isSome ↔ 0 ≤ word.toInt ∧ word.toInt < 218 := by
  have size := size_rows
  unfold ofWord?
  split <;> simp <;> omega

/-- The value of an opcode's word is its number. -/
theorem toInt_word (opcode : Opcode) : opcode.word.toInt = opcode.val := by
  have bound : opcode.val < 218 := size_rows ▸ opcode.isLt
  unfold word
  rw [Int32.toInt_ofNat_of_lt (by omega)]

/-- The word of an opcode stands for it. -/
theorem ofWord?_word (opcode : Opcode) : ofWord? opcode.word = some opcode := by
  unfold ofWord?
  have value := toInt_word opcode
  rw [dif_pos ⟨by omega, by have := opcode.isLt; omega⟩]
  simp [value]

/-- A word that stands for an opcode is the word of that opcode. -/
theorem word_of_ofWord? {word : Word} {opcode : Opcode} (h : ofWord? word = some opcode) :
    opcode.word = word := by
  unfold ofWord? at h
  split at h
  · rename_i bounds
    apply Int32.toInt_inj.mp
    rw [toInt_word, ← Option.some.inj h]
    exact Int.toNat_of_nonneg bounds.1
  · cases h

end Opcode

end Disassembler
