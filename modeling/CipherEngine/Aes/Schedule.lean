import CipherEngine.Aes.Round

/-!
# Key schedule of AES

A key of four, six or eight words expands into one round key for the start and
one for each round. The schedule of a key holds the round keys of encryption and
after them those of the equivalent inverse cipher: the same keys in reverse
order, all but the first and the last of them mixed back.

Words are substituted by a whole round: in a state with the same word in every
column the rows shift into themselves, so mixing back leaves the substituted
word in every column.
-/
namespace CipherEngine.Aes

/-- The three sizes of key. -/
inductive Variant where
  | aes128
  | aes192
  | aes256
deriving DecidableEq

namespace Variant

/-- Words of the key. -/
def keyWords : Variant → Nat
  | .aes128 => 4
  | .aes192 => 6
  | .aes256 => 8

/-- Bytes of the key. -/
def keyLength (variant : Variant) : Nat := 4 * variant.keyWords

/-- Rounds of the cipher. -/
def rounds (variant : Variant) : Nat := variant.keyWords + 6

/-- Bytes of the round keys of one direction. -/
def scheduleLength (variant : Variant) : Nat := 16 * (variant.rounds + 1)

/-- Bytes of a context: the round keys of both directions. -/
def contextSize (variant : Variant) : Nat := 2 * variant.scheduleLength

end Variant

/-- Every byte of a word substituted, by way of a round. -/
def substituteWord (word : Word) : Word :=
  ((Block.replicate word).round Block.zero).unmixColumns.c0

/-- What is added to the word `keyWords` places back to make the next word. -/
def nextTerm (keyWords index : Nat) (constant : UInt8) (last : Word) : Word :=
  if index % keyWords = 0 then
    (substituteWord last.rotate).add ⟨constant, 0, 0, 0⟩
  else if 6 < keyWords ∧ index % keyWords = 4 then substituteWord last
  else last

/-- The round constant after the word with the given index. -/
def nextConstant (keyWords index : Nat) (constant : UInt8) : UInt8 :=
  if index % keyWords = 0 then double constant else constant

/-- Appends `count` words to a schedule. The words so far are given latest
first; the result is in order. -/
def extend (keyWords : Nat) :
    (count index : Nat) → (constant : UInt8) → (latest : List Word) → List Word
  | 0, _, _, latest => latest.reverse
  | count + 1, index, constant, latest =>
    let term := nextTerm keyWords index constant (latest.getD 0 Word.zero)
    let word := (latest.getD (keyWords - 1) Word.zero).add term
    extend keyWords count (index + 1) (nextConstant keyWords index constant) (word :: latest)

/-- The words of a key. -/
def keyToWords (keyWords : Nat) (key : Bytes) : List Word :=
  (Bytes.cut 4 keyWords key).map Word.read

/-- All words of the schedule of a key. -/
def expandWords (variant : Variant) (key : Bytes) : List Word :=
  extend variant.keyWords (4 * (variant.rounds + 1) - variant.keyWords) variant.keyWords 1
    (keyToWords variant.keyWords key).reverse

/-- The bytes of the round keys of encryption. -/
def encryptionKeys (variant : Variant) (key : Bytes) : Bytes :=
  (expandWords variant key).flatMap Word.toBytes

/-- The round key of the equivalent inverse cipher for a round. -/
def decryptionKey (rounds : Nat) (keys : List Block) (round : Nat) : Block :=
  let key := keys.getD (rounds - round) Block.zero
  if round = 0 ∨ round = rounds then key else key.unmixColumns

/-- The bytes of the round keys of the equivalent inverse cipher, made from those
of encryption. -/
def decryptionKeys (rounds : Nat) (encryption : Bytes) : Bytes :=
  let keys := (Bytes.cut 16 (rounds + 1) encryption).map Block.read
  (List.range (rounds + 1)).flatMap fun round => (decryptionKey rounds keys round).toBytes

/-- The schedule of a key, as it stands in a context. -/
def scheduleOf (variant : Variant) (key : Bytes) : Bytes :=
  let encryption := encryptionKeys variant key
  encryption ++ decryptionKeys variant.rounds encryption

/-- The rounds after the first key: full rounds, then one whose mixing is undone
before its key is added. Round keys are read from the front of `keys`. -/
def encryptRounds : (rounds : Nat) → (keys : Bytes) → Block → Block
  | 0, keys, block => (block.round Block.zero).unmixColumns.add (Block.read keys)
  | rounds + 1, keys, block => encryptRounds rounds (keys.drop 16) (block.round (Block.read keys))

/-- The rounds of the equivalent inverse cipher after the first key. -/
def decryptRounds : (rounds : Nat) → (keys : Bytes) → Block → Block
  | 0, keys, block => (block.inverseRound Block.zero).mixColumns.add (Block.read keys)
  | rounds + 1, keys, block =>
    decryptRounds rounds (keys.drop 16) (block.inverseRound (Block.read keys))

/-- One block encrypted under a schedule. -/
def encryptBlock (variant : Variant) (context block : Bytes) : Bytes :=
  (encryptRounds (variant.rounds - 1) (context.drop 16)
    ((Block.read block).add (Block.read context))).toBytes

/-- One block decrypted under a schedule. -/
def decryptBlock (variant : Variant) (context block : Bytes) : Bytes :=
  let keys := context.drop variant.scheduleLength
  (decryptRounds (variant.rounds - 1) (keys.drop 16)
    ((Block.read block).add (Block.read keys))).toBytes

end CipherEngine.Aes
