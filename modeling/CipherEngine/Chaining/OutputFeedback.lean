import CipherEngine.Chaining.State

/-!
# Output feedback

The keystream is the chaining value encrypted again and again, whatever the
message is; encryption and decryption are the same operation. The end of the
chaining value that a call leaves unused is the carry of the next call.
-/
namespace CipherEngine.OutputFeedback

variable {m : Type → Type} [Monad m]

/-- Uses up bytes that the carry covers. -/
def fromCarry (chain : Chain) (buffer : Bytes) : Checked m (Chain × Bytes) := do
  let start ← Checked.subtract chain.blockLength chain.carry
  let (_, pad) ← Checked.split start chain.iv
  let carry ← Checked.subtract chain.carry buffer.length
  pure ({ chain with carry }, Bytes.mask buffer pad)

/-- Masks blocks one by one, each with the next keystream block. -/
def maskEach (cipher : KeyedCipher m) :
    (chain : Chain) → List Bytes → Checked m (Chain × List Bytes)
  | chain, [] => pure (chain, [])
  | chain, block :: rest => do
    let chain ← chain.advance cipher
    let (last, others) ← maskEach cipher chain rest
    pure (last, Bytes.mask block chain.iv :: others)

/-- The last bytes, fewer than a block. -/
def partialBlock (cipher : KeyedCipher m) (chain : Chain) (buffer : Bytes) :
    Checked m (Chain × Bytes) := do
  if buffer.isEmpty then pure (chain, [])
  else do
    let chain ← chain.advance cipher
    let carry ← Checked.subtract chain.blockLength buffer.length
    pure ({ chain with carry }, Bytes.mask buffer chain.iv)

/-- Transforms a buffer that begins at a block of keystream. -/
def fromBoundary (cipher : KeyedCipher m) (chain : Chain) (buffer : Bytes) :
    Checked m (Chain × Bytes) := do
  let (blocks, rest) ← Checked.wholeBlocks chain.blockLength buffer
  let (chain, outputs) ← maskEach cipher chain blocks
  let (chain, ending) ← partialBlock cipher chain rest
  pure (chain, outputs.flatten ++ ending)

/-- Transforms a buffer: first with the carry, then block by block. -/
def transform (cipher : KeyedCipher m) (chain : Chain) (buffer : Bytes) :
    Checked m (Chain × Bytes) := do
  if buffer.length ≤ chain.carry then fromCarry chain buffer
  else do
    let (head, rest) ← Checked.split chain.carry buffer
    let (chain, carried) ← fromCarry chain head
    let (chain, output) ← fromBoundary cipher chain rest
    pure (chain, carried ++ output)

end CipherEngine.OutputFeedback
