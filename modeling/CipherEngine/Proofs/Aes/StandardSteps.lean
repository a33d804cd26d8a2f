import CipherEngine.Proofs.Aes.Standard
import CipherEngine.Proofs.Aes.RoundKeys
import CipherEngine.Proofs.Aes.Steps
import Mathlib.Tactic.FinCases

/-!
# The steps are those of the standard

Words and blocks are read as bytes by row and column. Under this reading, doublings compute the
products with the constants of mixing, the two tables are the substitution box and its inverse,
and each step on blocks is the step of the standard on states.
-/
namespace CipherEngine.Aes

namespace Standard

/-- The products with the six constants of mixing are built from doublings. -/
theorem multiply_constants : ∀ byte : UInt8,
    multiply 0x02 byte = double byte ∧ multiply 0x03 byte = triple byte ∧
      multiply 0x09 byte = times9 byte ∧ multiply 0x0b byte = times11 byte ∧
      multiply 0x0d byte = times13 byte ∧ multiply 0x0e byte = times14 byte :=
  forall_byte (by decide +kernel)

end Standard

/-- A table that lists the values of a function in order gives the value of each byte. -/
theorem getD_table {table : Array UInt8} {function : UInt8 → UInt8}
    (listed : table.toList = (List.range 256).map fun number => function (UInt8.ofNat number))
    (byte : UInt8) : table.getD byte.toNat 0 = function byte := by
  have inside : byte.toNat < ((List.range 256).map fun number =>
      function (UInt8.ofNat number)).length := by
    rw [List.length_map, List.length_range]
    exact byte.toNat_lt
  rw [Array.getD_eq_getD_getElem?, ← Array.getElem?_toList, listed,
    List.getElem?_eq_getElem inside, Option.getD_some, List.getElem_map, List.getElem_range,
    UInt8.ofNat_toNat]

/-- The table is the substitution box. -/
theorem substitute_eq (byte : UInt8) : substitute byte = Standard.subByte byte := by
  have listed : substitutionTable.toList =
      (List.range 256).map fun number => Standard.subByte (UInt8.ofNat number) := by
    decide +kernel
  rw [substitute, getD_table listed]

/-- The inverse table is the inverse substitution box. -/
theorem unsubstitute_eq (byte : UInt8) : unsubstitute byte = Standard.invSubByte byte := by
  have listed : inverseTable.toList =
      (List.range 256).map fun number => Standard.invSubByte (UInt8.ofNat number) := by
    decide +kernel
  rw [unsubstitute, getD_table listed]

namespace Word

/-- The bytes of a word by row. -/
def entries (word : Word) : Standard.Column
  | 0 => word.b0
  | 1 => word.b1
  | 2 => word.b2
  | 3 => word.b3

/-- Words are added entry by entry. -/
@[simp] theorem entries_add (left right : Word) (row : Fin 4) :
    (left.add right).entries row = left.entries row ^^^ right.entries row := by
  fin_cases row <;> rfl

/-- A function on bytes is applied to a word entry by entry. -/
@[simp] theorem entries_map (function : UInt8 → UInt8) (word : Word) (row : Fin 4) :
    (word.map function).entries row = function (word.entries row) := by
  fin_cases row <;> rfl

/-- The word of four bytes by row. -/
def ofEntries (column : Standard.Column) : Word := read (List.ofFn column)

/-- A word made of a column has the entries of the column. -/
@[simp] theorem entries_ofEntries (column : Standard.Column) :
    (ofEntries column).entries = column := by
  funext row
  fin_cases row <;> rfl

/-- Row by row, mixing adds up the products with 2, 3, 1 and 1, from the row itself on. -/
theorem entries_mix (word : Word) (row : Fin 4) :
    word.mix.entries row =
      Standard.multiply 0x02 (word.entries row) ^^^
        Standard.multiply 0x03 (word.entries (row + 1)) ^^^
          word.entries (row + 2) ^^^ word.entries (row + 3) := by
  simp only [Standard.multiply_constants]
  fin_cases row <;> simp [mix, entries, UInt8.xor_assoc, UInt8.xor_comm, xor_left_comm]

/-- And mixing back the products with 14, 11, 13 and 9. -/
theorem entries_unmix (word : Word) (row : Fin 4) :
    word.unmix.entries row =
      Standard.multiply 0x0e (word.entries row) ^^^
        Standard.multiply 0x0b (word.entries (row + 1)) ^^^
          Standard.multiply 0x0d (word.entries (row + 2)) ^^^
            Standard.multiply 0x09 (word.entries (row + 3)) := by
  simp only [Standard.multiply_constants]
  fin_cases row <;> simp [unmix, entries, UInt8.xor_assoc, UInt8.xor_comm, xor_left_comm]

end Word

/-- Words are substituted by way of a round, and yet byte by byte: in a state of four equal
columns the shift of rows changes nothing. -/
theorem substituteWord_eq (word : Word) : substituteWord word = word.map Standard.subByte := by
  rw [substituteWord, Block.round_unmixColumns, Block.replicate, Block.substitute, Block.map,
    Block.shiftRows, funext substitute_eq, Word.map]

namespace Block

/-- The columns of a block by number. -/
def columns (block : Block) : Fin 4 → Word
  | 0 => block.c0
  | 1 => block.c1
  | 2 => block.c2
  | 3 => block.c3

/-- The bytes of a block by row and column. -/
def state (block : Block) : Standard.State := fun row column => (block.columns column).entries row

/-- A function on words is applied to a block column by column. -/
@[simp] theorem columns_map (function : Word → Word) (block : Block) (column : Fin 4) :
    (block.map function).columns column = function (block.columns column) := by
  fin_cases column <;> rfl

/-- Substitution is that of the standard. -/
theorem state_substitute (block : Block) :
    block.substitute.state = Standard.subBytes block.state := by
  funext row column
  rw [state, substitute, columns_map, Word.entries_map, substitute_eq, Standard.subBytes, state]

/-- So is substitution back. -/
theorem state_unsubstitute (block : Block) :
    block.unsubstitute.state = Standard.invSubBytes block.state := by
  funext row column
  rw [state, unsubstitute, columns_map, Word.entries_map, unsubstitute_eq, Standard.invSubBytes,
    state]

/-- The shift of rows is that of the standard. -/
theorem state_shiftRows (block : Block) :
    block.shiftRows.state = Standard.shiftRows block.state := by
  funext row column
  fin_cases row <;> fin_cases column <;> rfl

/-- So is the shift back. -/
theorem state_unshiftRows (block : Block) :
    block.unshiftRows.state = Standard.invShiftRows block.state := by
  funext row column
  fin_cases row <;> fin_cases column <;> rfl

/-- The mixing of columns is that of the standard. -/
theorem state_mixColumns (block : Block) :
    block.mixColumns.state = Standard.mixColumns block.state := by
  funext row column
  rw [state, mixColumns, columns_map, Word.entries_mix]
  rfl

/-- So is mixing back. -/
theorem state_unmixColumns (block : Block) :
    block.unmixColumns.state = Standard.invMixColumns block.state := by
  funext row column
  rw [state, unmixColumns, columns_map, Word.entries_unmix]
  rfl

/-- The addition of keys is that of the standard. -/
theorem state_add (block key : Block) :
    (block.add key).state = Standard.addRoundKey block.state key.state := by
  funext row column
  fin_cases column <;> exact Word.entries_add _ _ row

/-- The standard writes a state as a block is written. -/
theorem toBytes_state (block : Block) : Standard.toBytes block.state = block.toBytes := rfl

/-- And reads it as a block is read. -/
theorem state_read {bytes : Bytes} (width : bytes.length = 16) :
    (read bytes).state = Standard.ofBytes bytes := by
  have written (block : Block) : block.state = Standard.ofBytes block.toBytes := by
    funext row column
    fin_cases row <;> fin_cases column <;> rfl
  rw [written, toBytes_read width]

/-- Four successive words are the columns of a round key. -/
theorem state_ofWords (word : Nat → Word) (number : Nat) (row column : Fin 4) :
    (ofWords word number).state row column = (word (4 * number + column)).entries row := by
  fin_cases column <;> rfl

end Block

end CipherEngine.Aes
