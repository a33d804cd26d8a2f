import CipherEngine.Bytes

/-!
# AES as the standard has it

FIPS-197 gives the cipher as operations on four rows and four columns of bytes. Here they are
written down as they stand there, for a key of four, six or eight words: a byte is a polynomial
over two elements, products are taken modulo another polynomial, and the substitution box is
the inverse in this field followed by an affine map of its bits. Row and column numbers are
taken modulo four. The words of an expanded key are given by their recurrence, and each word by
itself.

Nothing is shared with the cipher that runs but byte strings. There, products are built from
doublings, the boxes are tables, and the words of a key are appended to a list.
-/
namespace CipherEngine.Aes.Standard

/-- Four bytes by row: a column of the state, or a word of an expanded key. -/
abbrev Column := Fin 4 → UInt8

/-- Bytes by row and column. -/
abbrev State := Fin 4 → Fin 4 → UInt8

section Field

/-- The coefficient of a polynomial over two elements at a place: the bits of a number are the
coefficients. -/
def coefficient (polynomial place : Nat) : Nat := polynomial >>> place % 2

/-- The product with what another polynomial has below a degree. -/
def product (left right : Nat) : (degree : Nat) → Nat
  | 0 => 0
  | place + 1 => product left right place ^^^ coefficient right place * (left <<< place)

/-- What is left modulo `x^8 + x^4 + x^3 + x + 1` of a polynomial with as many places above. -/
def remainder : (above : Nat) → (polynomial : Nat) → Nat
  | 0, polynomial => polynomial
  | place + 1, polynomial =>
    remainder place (polynomial ^^^ coefficient polynomial (place + 8) * (0x11b <<< place))

/-- The product in the field. -/
def multiply (left right : UInt8) : UInt8 :=
  UInt8.ofNat (remainder 7 (product left.toNat right.toNat 8))

/-- The inverse in the field, and zero for zero: the power of 254, which is 240 and 12 and 2. -/
def inverse (byte : UInt8) : UInt8 :=
  let square (power : UInt8) := multiply power power
  let power2 := square byte
  let power3 := multiply power2 byte
  let power12 := square (square power3)
  let power15 := multiply power12 power3
  let power240 := square (square (square (square power15)))
  multiply power240 (multiply power12 power2)

/-- A bit of a byte. Places are taken modulo eight. -/
def bit (byte : UInt8) (place : Nat) : Nat := coefficient byte.toNat (place % 8)

/-- The byte with the given bits. -/
def ofBits (bits : Nat → Nat) : UInt8 :=
  UInt8.ofNat ((List.range 8).foldl (fun sum place => sum + bits place <<< place) 0)

/-- The substitution box: the inverse, and then an affine map of its bits. -/
def subByte (byte : UInt8) : UInt8 :=
  let source := inverse byte
  ofBits fun place => bit source place ^^^ bit source (place + 4) ^^^ bit source (place + 5) ^^^
    bit source (place + 6) ^^^ bit source (place + 7) ^^^ bit 0x63 place

/-- The inverse substitution box: the affine map undone, and then the inverse. -/
def invSubByte (byte : UInt8) : UInt8 :=
  inverse (ofBits fun place =>
    bit byte (place + 2) ^^^ bit byte (place + 5) ^^^ bit byte (place + 7) ^^^ bit 0x05 place)

end Field

section Rounds

/-- Every byte substituted. -/
def subBytes (state : State) : State := fun row column => subByte (state row column)

/-- Row `r` moved `r` columns to the left. -/
def shiftRows (state : State) : State := fun row column => state row (column + row)

/-- Every column multiplied by the polynomial `3 x^3 + x^2 + x + 2` modulo `x^4 + 1`. -/
def mixColumns (state : State) : State := fun row column =>
  multiply 0x02 (state row column) ^^^ multiply 0x03 (state (row + 1) column) ^^^
    state (row + 2) column ^^^ state (row + 3) column

/-- The sum of a state and a round key. -/
def addRoundKey (state key : State) : State := fun row column => state row column ^^^ key row column

/-- Every byte substituted back. -/
def invSubBytes (state : State) : State := fun row column => invSubByte (state row column)

/-- Row `r` moved `r` columns to the right. -/
def invShiftRows (state : State) : State := fun row column => state row (column - row)

/-- Every column multiplied by the polynomial `11 x^3 + 13 x^2 + 9 x + 14` modulo `x^4 + 1`. -/
def invMixColumns (state : State) : State := fun row column =>
  multiply 0x0e (state row column) ^^^ multiply 0x0b (state (row + 1) column) ^^^
    multiply 0x0d (state (row + 2) column) ^^^ multiply 0x09 (state (row + 3) column)

/-- The state that is read from bytes column by column. -/
def ofBytes (bytes : Bytes) : State := fun row column => bytes.getD (row + 4 * column) 0

/-- The bytes of a state, column by column. -/
def toBytes (state : State) : Bytes :=
  (List.finRange 4).flatMap fun column => (List.finRange 4).map fun row => state row column

end Rounds

section Expansion

/-- The bytes of a word moved up by one place, the first to the end. -/
def rotWord (word : Column) : Column := fun row => word (row + 1)

/-- Every byte of a word substituted. -/
def subWord (word : Column) : Column := fun row => subByte (word row)

/-- A power of `x` in the field. -/
def powerOfX : (power : Nat) → UInt8
  | 0 => 1
  | power + 1 => multiply 0x02 (powerOfX power)

/-- The round constant with a number, from one on. -/
def rcon (number : Nat) : Column := fun row => if row = 0 then powerOfX (number - 1) else 0

/-- What is added to the word `keyWords` places back, made from the last word. -/
def temp (keyWords index : Nat) (last : Column) : Column :=
  if index % keyWords = 0 then
    fun row => subWord (rotWord last) row ^^^ rcon (index / keyWords) row
  else if 6 < keyWords ∧ index % keyWords = 4 then subWord last
  else last

/-- A word of the expanded key by number. The first ones are the words of the key. -/
def expandedWord (keyWords : Nat) (key : Bytes) (index : Nat) : Column :=
  if early : index < keyWords ∨ keyWords = 0 then fun row => key.getD (4 * index + row) 0
  else
    fun row =>
      expandedWord keyWords key (index - keyWords) row ^^^
        temp keyWords index (expandedWord keyWords key (index - 1)) row
termination_by index

/-- The round key of a round: four words of the expanded key, each a column. -/
def roundKey (keyWords : Nat) (key : Bytes) (round : Nat) : State :=
  fun row column => expandedWord keyWords key (4 * round + column) row

/-- Rounds of the cipher. -/
def rounds (keyWords : Nat) : Nat := keyWords + 6

/-- The bytes of all words of the expanded key. -/
def keyExpansion (keyWords : Nat) (key : Bytes) : Bytes :=
  (List.range (4 * (rounds keyWords + 1))).flatMap fun index =>
    (List.finRange 4).map (expandedWord keyWords key index)

/-- The bytes of the round keys in the reverse order, all but the first and the last of them
mixed back. -/
def inverseExpansion (keyWords : Nat) (key : Bytes) : Bytes :=
  (List.range (rounds keyWords + 1)).flatMap fun round =>
    let source := roundKey keyWords key (rounds keyWords - round)
    toBytes (if 0 < round ∧ round < rounds keyWords then invMixColumns source else source)

end Expansion

section Cipher

variable (keyWords : Nat) (key : Bytes)

/-- A round of the cipher. -/
def cipherRound (state : State) (round : Nat) : State :=
  addRoundKey (mixColumns (shiftRows (subBytes state))) (roundKey keyWords key round)

/-- The cipher, whose last round does not mix. -/
def cipher (block : Bytes) : Bytes :=
  let start := addRoundKey (ofBytes block) (roundKey keyWords key 0)
  let middle := (List.range' 1 (rounds keyWords - 1)).foldl (cipherRound keyWords key) start
  toBytes (addRoundKey (shiftRows (subBytes middle)) (roundKey keyWords key (rounds keyWords)))

/-- A round of the inverse cipher. -/
def invCipherRound (state : State) (round : Nat) : State :=
  invMixColumns (addRoundKey (invSubBytes (invShiftRows state)) (roundKey keyWords key round))

/-- The inverse cipher, with the same round keys in the reverse order. -/
def invCipher (block : Bytes) : Bytes :=
  let start := addRoundKey (ofBytes block) (roundKey keyWords key (rounds keyWords))
  let middle :=
    (List.range' 1 (rounds keyWords - 1)).reverse.foldl (invCipherRound keyWords key) start
  toBytes (addRoundKey (invSubBytes (invShiftRows middle)) (roundKey keyWords key 0))

end Cipher

end CipherEngine.Aes.Standard
