import CipherEngine.Chaining.State

/-!
# Cipher feedback

The chaining value doubles as the keystream block: while the carry is positive,
its last bytes are keystream that is still to be used, and the bytes before them
are already ciphertext. A message cut into calls therefore gives the same bytes
as the message in one call.

The previous chaining value is kept whenever a call may end inside a block, so
that a handle can be realigned to the last block boundary of the ciphertext.
-/
namespace CipherEngine.CipherFeedback

variable {m : Type → Type} [Monad m]

/-- Uses up bytes that the carry covers. -/
def fromCarry (direction : Direction) (chain : Chain) (buffer : Bytes) :
    Checked m (Chain × Bytes) := do
  let start ← Checked.subtract chain.blockLength chain.carry
  let (used, pad) ← Checked.split start chain.iv
  let (pad, output) := feed direction pad buffer
  let carry ← Checked.subtract chain.carry buffer.length
  pure ({ chain with iv := used ++ pad, carry }, output)

/-- Feeds blocks one by one, without keeping the previous chaining value. -/
def feedEach (cipher : KeyedCipher m) (direction : Direction) :
    (iv : Bytes) → List Bytes → Checked m (Bytes × List Bytes)
  | iv, [] => pure (iv, [])
  | iv, block :: rest => do
    let pad ← cipher.encrypt iv
    let (next, output) := feed direction pad block
    let (last, others) ← feedEach cipher direction next rest
    pure (last, output :: others)

/-- The leading blocks of a buffer of two blocks or more: all whole blocks where
the cipher has bulk routines, else all but the last. Returns what is left. -/
def leadingBlocks (cipher : KeyedCipher m) (direction : Direction) (chain : Chain)
    (buffer : Bytes) : Checked m (Chain × Bytes × Bytes) := do
  if buffer.length < 2 * chain.blockLength then pure (chain, [], buffer)
  else do
    let count ← Checked.quotient buffer.length chain.blockLength
    match cipher.bulk with
    | some bulk => do
      let (blocks, rest) ← Checked.split (count * chain.blockLength) buffer
      let routine := match direction with
        | .encrypt => bulk.cfbEncrypt
        | .decrypt => bulk.cfbDecrypt
      let (iv, output) ← ExceptT.lift (routine cipher.context chain.iv blocks)
      pure ({ chain with iv }, output, rest)
    | none => do
      let leading ← Checked.subtract count 1
      let (blocks, rest) ← Checked.split (leading * chain.blockLength) buffer
      let (iv, outputs) ←
        feedEach cipher direction chain.iv (Bytes.cut chain.blockLength leading blocks)
      pure ({ chain with iv }, outputs.flatten, rest)

/-- A whole block, if the buffer has one. Returns what is left. -/
def wholeBlock (cipher : KeyedCipher m) (direction : Direction) (chain : Chain)
    (buffer : Bytes) : Checked m (Chain × Bytes × Bytes) := do
  if buffer.length < chain.blockLength then pure (chain, [], buffer)
  else do
    let (block, rest) ← Checked.split chain.blockLength buffer
    let chain ← chain.advance cipher
    let (iv, output) := feed direction chain.iv block
    pure ({ chain with iv }, output, rest)

/-- The last bytes, fewer than a block. What they leave of the keystream block
is carried. -/
def partialBlock (cipher : KeyedCipher m) (direction : Direction) (chain : Chain)
    (buffer : Bytes) : Checked m (Chain × Bytes) := do
  if buffer.isEmpty then pure (chain, [])
  else do
    let chain ← chain.advance cipher
    let carry ← Checked.subtract chain.blockLength buffer.length
    let (iv, output) := feed direction chain.iv buffer
    pure ({ chain with iv, carry }, output)

/-- Transforms a buffer that the carry does not cover, after the carry. -/
def fromBoundary (cipher : KeyedCipher m) (direction : Direction) (chain : Chain)
    (buffer : Bytes) : Checked m (Chain × Bytes) := do
  let (chain, leading, buffer) ← leadingBlocks cipher direction chain buffer
  let (chain, last, buffer) ← wholeBlock cipher direction chain buffer
  let (chain, ending) ← partialBlock cipher direction chain buffer
  pure (chain, leading ++ last ++ ending)

/-- Transforms a buffer: first with the carry, then block by block. -/
def transform (cipher : KeyedCipher m) (direction : Direction) (chain : Chain)
    (buffer : Bytes) : Checked m (Chain × Bytes) := do
  if buffer.length ≤ chain.carry then fromCarry direction chain buffer
  else do
    let (head, rest) ← Checked.split chain.carry buffer
    let (chain, carried) ← fromCarry direction chain head
    let (chain, output) ← fromBoundary cipher direction chain rest
    pure (chain, carried ++ output)

/-- Realigns the chaining value to the last block boundary of the ciphertext:
the ciphertext it holds moves to the end, and the missing bytes in front come
from the end of the previous chaining value. -/
def realign (chain : Chain) : Checked m Chain := do
  if chain.carry = 0 then pure chain
  else do
    let kept ← Checked.subtract chain.blockLength chain.carry
    let (used, _) ← Checked.split kept chain.iv
    let (_, earlier) ← Checked.split kept chain.previous
    let iv ← Checked.replace chain.iv (earlier ++ used)
    pure { chain with iv, carry := 0 }

end CipherEngine.CipherFeedback
