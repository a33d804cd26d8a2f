import CipherEngine.Bytes
import CipherEngine.Aes.Field

/-!
# Rounds of AES

The state is four columns of four bytes. The four steps of a round and their
inverses are defined on columns and states, and a round is their composition
followed by the addition of a round key. A state is read from a byte string
column by column.
-/
namespace CipherEngine.Aes

/-- Four bytes: a column of the state, or a word of the key schedule. -/
structure Word where
  b0 : UInt8
  b1 : UInt8
  b2 : UInt8
  b3 : UInt8
deriving DecidableEq

namespace Word

/-- The word of zero bytes. -/
def zero : Word := ⟨0, 0, 0, 0⟩

/-- The sum of two words. -/
def add (left right : Word) : Word :=
  ⟨left.b0 ^^^ right.b0, left.b1 ^^^ right.b1, left.b2 ^^^ right.b2, left.b3 ^^^ right.b3⟩

/-- A function applied to each byte. -/
def map (function : UInt8 → UInt8) (word : Word) : Word :=
  ⟨function word.b0, function word.b1, function word.b2, function word.b3⟩

/-- The bytes moved up by one place, the first to the end. -/
def rotate (word : Word) : Word := ⟨word.b1, word.b2, word.b3, word.b0⟩

/-- The product of a column with the mixing polynomial. -/
def mix (word : Word) : Word :=
  ⟨double word.b0 ^^^ triple word.b1 ^^^ word.b2 ^^^ word.b3,
    word.b0 ^^^ double word.b1 ^^^ triple word.b2 ^^^ word.b3,
    word.b0 ^^^ word.b1 ^^^ double word.b2 ^^^ triple word.b3,
    triple word.b0 ^^^ word.b1 ^^^ word.b2 ^^^ double word.b3⟩

/-- The product of a column with the inverse of the mixing polynomial. -/
def unmix (word : Word) : Word :=
  ⟨times14 word.b0 ^^^ times11 word.b1 ^^^ times13 word.b2 ^^^ times9 word.b3,
    times9 word.b0 ^^^ times14 word.b1 ^^^ times11 word.b2 ^^^ times13 word.b3,
    times13 word.b0 ^^^ times9 word.b1 ^^^ times14 word.b2 ^^^ times11 word.b3,
    times11 word.b0 ^^^ times13 word.b1 ^^^ times9 word.b2 ^^^ times14 word.b3⟩

/-- The first four bytes of a string, or the zero word if it has fewer. -/
def read : Bytes → Word
  | b0 :: b1 :: b2 :: b3 :: _ => ⟨b0, b1, b2, b3⟩
  | _ => zero

/-- The bytes of a word in order. -/
def toBytes (word : Word) : Bytes := [word.b0, word.b1, word.b2, word.b3]

end Word

/-- Four columns: the state of the cipher, or a round key. -/
structure Block where
  c0 : Word
  c1 : Word
  c2 : Word
  c3 : Word
deriving DecidableEq

namespace Block

/-- The state of zero bytes. -/
def zero : Block := ⟨.zero, .zero, .zero, .zero⟩

/-- The state with the same word in every column. -/
def replicate (word : Word) : Block := ⟨word, word, word, word⟩

/-- A function applied to each column. -/
def map (function : Word → Word) (block : Block) : Block :=
  ⟨function block.c0, function block.c1, function block.c2, function block.c3⟩

/-- The sum of a state and a round key. -/
def add (block key : Block) : Block :=
  ⟨block.c0.add key.c0, block.c1.add key.c1, block.c2.add key.c2, block.c3.add key.c3⟩

/-- Every byte substituted. -/
def substitute (block : Block) : Block :=
  block.map (Word.map Aes.substitute)

/-- Every byte substituted back. -/
def unsubstitute (block : Block) : Block :=
  block.map (Word.map Aes.unsubstitute)

/-- Row `r` moved `r` columns to the left. -/
def shiftRows (block : Block) : Block :=
  ⟨⟨block.c0.b0, block.c1.b1, block.c2.b2, block.c3.b3⟩,
    ⟨block.c1.b0, block.c2.b1, block.c3.b2, block.c0.b3⟩,
    ⟨block.c2.b0, block.c3.b1, block.c0.b2, block.c1.b3⟩,
    ⟨block.c3.b0, block.c0.b1, block.c1.b2, block.c2.b3⟩⟩

/-- Row `r` moved `r` columns to the right. -/
def unshiftRows (block : Block) : Block :=
  ⟨⟨block.c0.b0, block.c3.b1, block.c2.b2, block.c1.b3⟩,
    ⟨block.c1.b0, block.c0.b1, block.c3.b2, block.c2.b3⟩,
    ⟨block.c2.b0, block.c1.b1, block.c0.b2, block.c3.b3⟩,
    ⟨block.c3.b0, block.c2.b1, block.c1.b2, block.c0.b3⟩⟩

/-- Every column mixed. -/
def mixColumns (block : Block) : Block := block.map Word.mix

/-- Every column mixed back. -/
def unmixColumns (block : Block) : Block := block.map Word.unmix

/-- One round of encryption. -/
def round (block key : Block) : Block :=
  block.substitute.shiftRows.mixColumns.add key

/-- One round of the equivalent inverse cipher. Its key has been mixed back. -/
def inverseRound (block key : Block) : Block :=
  block.unsubstitute.unshiftRows.unmixColumns.add key

/-- The first sixteen bytes of a string, column by column. -/
def read (bytes : Bytes) : Block :=
  ⟨Word.read bytes, Word.read (bytes.drop 4), Word.read (bytes.drop 8), Word.read (bytes.drop 12)⟩

/-- The bytes of a state, column by column. -/
def toBytes (block : Block) : Bytes :=
  block.c0.toBytes ++ block.c1.toBytes ++ block.c2.toBytes ++ block.c3.toBytes

/-- A block is written as sixteen bytes. -/
@[simp] theorem length_toBytes (block : Block) : block.toBytes.length = 16 := rfl

/-- Reading back what was written gives the state, whatever follows. -/
theorem read_toBytes (block : Block) (rest : Bytes) : read (block.toBytes ++ rest) = block := rfl

end Block

end CipherEngine.Aes
