import CipherEngine.Chaining.State

/-!
# Cipher block chaining

Each block is masked with the ciphertext block before it. Whole buffers of
blocks go to the bulk routines of a cipher that has them, else block by block.

With ciphertext stealing and more than one block of input, the last two blocks
are swapped: the last full block of output is the encryption of the zero-padded
last block of input, and the tail holds the leading bytes of the ciphertext
block before it. Aligned input is swapped too. As a MAC, chaining yields only
the last chaining value.
-/
namespace CipherEngine.BlockChaining

variable {m : Type → Type} [Monad m]

/-- Encrypts block by block. Returns the last ciphertext block, or the given
chaining value if there is no block, and the output blocks. -/
def encryptEach (cipher : KeyedCipher m) :
    (iv : Bytes) → List Bytes → Checked m (Bytes × List Bytes)
  | iv, [] => pure (iv, [])
  | iv, block :: rest => do
    let sealed ← cipher.encrypt (Bytes.mask block iv)
    let next ← Checked.replace iv sealed
    let (last, others) ← encryptEach cipher next rest
    pure (last, sealed :: others)

/-- Decrypts block by block. Every ciphertext block is kept as the previous
chaining value before it is decrypted, and is the next chaining value after. -/
def decryptEach (cipher : KeyedCipher m) :
    (chain : Chain) → List Bytes → Checked m (Chain × List Bytes)
  | chain, [] => pure (chain, [])
  | chain, block :: rest => do
    let previous ← Checked.replace chain.previous block
    let opened ← cipher.decrypt block
    let iv ← Checked.replace chain.iv previous
    let (last, others) ← decryptEach cipher { chain with iv, previous } rest
    pure (last, Bytes.mask opened chain.iv :: others)

/-- Encrypts a buffer of whole blocks. -/
def encryptRun (cipher : KeyedCipher m) (chain : Chain) (buffer : Bytes) :
    Checked m (Chain × Bytes) :=
  match cipher.bulk with
  | some bulk => do
    let (iv, output) ← ExceptT.lift (bulk.cbcEncrypt cipher.context chain.iv buffer)
    pure ({ chain with iv }, output)
  | none => do
    let (blocks, rest) ← Checked.wholeBlocks chain.blockLength buffer
    let (iv, outputs) ← encryptEach cipher chain.iv blocks
    pure ({ chain with iv }, outputs.flatten ++ rest)

/-- Decrypts a buffer of whole blocks. -/
def decryptRun (cipher : KeyedCipher m) (chain : Chain) (buffer : Bytes) :
    Checked m (Chain × Bytes) :=
  match cipher.bulk with
  | some bulk => do
    let (iv, output) ← ExceptT.lift (bulk.cbcDecrypt cipher.context chain.iv buffer)
    pure ({ chain with iv }, output)
  | none => do
    let (blocks, rest) ← Checked.wholeBlocks chain.blockLength buffer
    let (chain, outputs) ← decryptEach cipher chain blocks
    pure (chain, outputs.flatten ++ rest)

/-- Whether stealing changes anything: it needs more than one block. -/
def steals (stealing : Bool) (length blockLength : Nat) : Bool :=
  stealing && blockLength < length

/-- Blocks before the tail, for a message that is stolen from. -/
def blocksBeforeTail (length blockLength : Nat) : Checked m Nat := do
  let whole ← Checked.quotient length blockLength
  if length % blockLength = 0 then Checked.subtract whole 1 else pure whole

/-- The last block before the tail has been encrypted to `sealed`. Swaps it with
the tail: its leading bytes become the tail of the output, and the block that
takes its place encrypts the tail of the input, padded with zeros. -/
def stealTail (cipher : KeyedCipher m) (chain : Chain) (sealed tail : Bytes) :
    Checked m (Chain × Bytes) := do
  let (stolen, _) ← Checked.split tail.length sealed
  let (_, ivRest) ← Checked.split tail.length chain.iv
  let block ← Checked.replace sealed (Bytes.mask tail chain.iv ++ ivRest)
  let last ← cipher.encrypt block
  let iv ← Checked.replace chain.iv last
  pure ({ chain with iv }, last ++ stolen)

/-- Encrypts a message. Without stealing it must be aligned. -/
def encrypt (cipher : KeyedCipher m) (stealing : Bool) (chain : Chain) (buffer : Bytes) :
    Checked m (Chain × Bytes) := do
  let blockLength := chain.blockLength
  if steals stealing buffer.length blockLength then do
    let count ← blocksBeforeTail buffer.length blockLength
    let (head, tail) ← Checked.split (count * blockLength) buffer
    let (chain, encrypted) ← encryptRun cipher chain head
    let before ← Checked.subtract count 1
    let (body, sealed) ← Checked.split (before * blockLength) encrypted
    let (chain, ending) ← stealTail cipher chain sealed tail
    pure (chain, body ++ ending)
  else do
    let count ← Checked.quotient buffer.length blockLength
    let (head, tail) ← Checked.split (count * blockLength) buffer
    let (chain, encrypted) ← encryptRun cipher chain head
    pure (chain, encrypted ++ tail)

/-- Undoes the swap. The swapped block gives back the bytes that the tail lacks;
with them the block before it is complete and is decrypted in its turn. -/
def returnTail (cipher : KeyedCipher m) (chain : Chain) (swapped tail : Bytes) :
    Checked m (Chain × Bytes) := do
  let chain ← chain.keepPrevious
  let opened ← cipher.decrypt swapped
  let (front, back) ← Checked.split tail.length opened
  let plainTail := Bytes.mask front tail
  let iv ← Checked.replace chain.iv (tail ++ back)
  let plain ← cipher.decrypt iv
  pure ({ chain with iv }, Bytes.mask plain chain.previous ++ plainTail)

/-- Decrypts a message. Without stealing it must be aligned. -/
def decrypt (cipher : KeyedCipher m) (stealing : Bool) (chain : Chain) (buffer : Bytes) :
    Checked m (Chain × Bytes) := do
  let blockLength := chain.blockLength
  if steals stealing buffer.length blockLength then do
    let count ← blocksBeforeTail buffer.length blockLength
    let before ← Checked.subtract count 1
    let (head, ending) ← Checked.split (before * blockLength) buffer
    let (chain, decrypted) ← decryptRun cipher chain head
    let (swapped, tail) ← Checked.split blockLength ending
    let (chain, ending) ← returnTail cipher chain swapped tail
    pure (chain, decrypted ++ ending)
  else do
    let count ← Checked.quotient buffer.length blockLength
    let (head, tail) ← Checked.split (count * blockLength) buffer
    let (chain, decrypted) ← decryptRun cipher chain head
    pure (chain, decrypted ++ tail)

/-- Chains blocks into the chaining value, without output. -/
def macEach (cipher : KeyedCipher m) : (iv : Bytes) → List Bytes → Checked m Bytes
  | iv, [] => pure iv
  | iv, block :: rest => do
    let next ← cipher.encrypt (Bytes.mask iv block)
    macEach cipher next rest

/-- Chains the whole blocks of a message into the chaining value, and says
whether there were any. -/
def mac (cipher : KeyedCipher m) (chain : Chain) (buffer : Bytes) : Checked m (Chain × Bool) := do
  let count ← Checked.quotient buffer.length chain.blockLength
  if count * chain.blockLength = 0 then pure (chain, false)
  else do
    let (whole, _) ← Checked.split (count * chain.blockLength) buffer
    match cipher.bulk with
    | some bulk => do
      let iv ← ExceptT.lift (bulk.cbcMac cipher.context chain.iv whole)
      pure ({ chain with iv }, true)
    | none => do
      let iv ← macEach cipher chain.iv (Bytes.cut chain.blockLength count whole)
      pure ({ chain with iv }, true)

end CipherEngine.BlockChaining
