import CipherEngine.Primitive

/-!
# State of a chained message

Between two calls a mode keeps a chaining value, the chaining value before it,
a counter, a temporary block, and a carry: how many bytes at the end of the
chaining value are keystream that no message byte has used yet. A keyed cipher
is a block transform with its context in place.

`Chain.advance` is the step that the feedback modes share: it keeps the chaining
value as the previous one and encrypts it into the next keystream block.
-/
namespace CipherEngine

/-- What a mode keeps between calls. -/
structure Chain where
  iv : Bytes
  previous : Bytes
  counter : Bytes
  scratch : Bytes
  carry : Nat
deriving DecidableEq

/-- A block cipher under a key. -/
structure KeyedCipher (m : Type → Type) where
  block : BlockCipher m
  bulk : Option (BulkRoutines m)
  context : Bytes

namespace KeyedCipher

variable {m : Type → Type} [Monad m]

/-- One block encrypted under the key. -/
def encrypt (cipher : KeyedCipher m) (block : Bytes) : Checked m Bytes :=
  ExceptT.lift (cipher.block.encrypt cipher.context block)

/-- One block decrypted under the key. -/
def decrypt (cipher : KeyedCipher m) (block : Bytes) : Checked m Bytes :=
  ExceptT.lift (cipher.block.decrypt cipher.context block)

/-- One block in the given direction. -/
def run (cipher : KeyedCipher m) : Direction → Bytes → Checked m Bytes
  | .encrypt => cipher.encrypt
  | .decrypt => cipher.decrypt

end KeyedCipher

namespace Chain

variable {m : Type → Type} [Monad m]

/-- Bytes of one block, which is the length of the chaining value. -/
def blockLength (chain : Chain) : Nat := chain.iv.length

/-- Keeps the chaining value as the previous one. -/
def keepPrevious (chain : Chain) : Checked m Chain := do
  let previous ← Checked.replace chain.previous chain.iv
  pure { chain with previous }

/-- Keeps the chaining value as the previous one and encrypts it in place. -/
def advance (cipher : KeyedCipher m) (chain : Chain) : Checked m Chain := do
  let chain ← chain.keepPrevious
  let iv ← cipher.encrypt chain.iv
  pure { chain with iv }

end Chain

/-- Of the input and the output of a transform, the one that is ciphertext. -/
def Direction.ciphertext (input output : Bytes) : Direction → Bytes
  | .encrypt => output
  | .decrypt => input

/-- Of the input and the output of a transform, the one that is plaintext. -/
def Direction.plaintext (input output : Bytes) : Direction → Bytes
  | .encrypt => input
  | .decrypt => output

/-- Masks a buffer with a keystream block and writes the ciphertext over the
front of that block. Returns the block and the masked buffer. -/
def feed (direction : Direction) (pad buffer : Bytes) : Bytes × Bytes :=
  let output := Bytes.mask buffer pad
  (Bytes.overlay (direction.ciphertext buffer output) pad, output)

end CipherEngine
