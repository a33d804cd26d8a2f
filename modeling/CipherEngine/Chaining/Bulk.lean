import CipherEngine.Chaining.State

/-!
# Bulk routines of a cipher that only computes

A cipher given by two functions on blocks has bulk routines that run over the
whole blocks of a buffer and leave the rest of it alone. They carry nothing but
the chaining value from block to block.
-/
namespace CipherEngine

/-- A block cipher as a pair of functions of a context and a block. -/
structure BlockFunctions where
  encrypt : (context block : Bytes) → Bytes
  decrypt : (context block : Bytes) → Bytes

namespace BlockFunctions

/-- The transform of single blocks. -/
def toTransform (functions : BlockFunctions) {m : Type → Type} [Monad m] : BlockCipher m where
  encrypt context block := pure (functions.encrypt context block)
  decrypt context block := pure (functions.decrypt context block)

end BlockFunctions

namespace Bulk

/-- Runs a step over blocks in order, handing the chaining value on. -/
def chain (step : (iv block : Bytes) → Bytes × Bytes) :
    (iv : Bytes) → List Bytes → Bytes × List Bytes
  | iv, [] => (iv, [])
  | iv, block :: rest =>
    let (next, output) := step iv block
    let (last, others) := chain step next rest
    (last, output :: others)

/-- Runs a step over the whole blocks of a buffer. -/
def runBlocks (size : Nat) (step : (iv block : Bytes) → Bytes × Bytes) (iv buffer : Bytes) :
    Bytes × Bytes :=
  let count := buffer.length / size
  let (last, outputs) := chain step iv (Bytes.cut size count buffer)
  (last, outputs.flatten ++ buffer.drop (count * size))

/-- A buffer of whole blocks leaves no rest. -/
theorem runBlocks_whole {size count : Nat} (step : (iv block : Bytes) → Bytes × Bytes) (iv : Bytes)
    {blocks : Bytes} (positive : 0 < size) (width : blocks.length = count * size) :
    runBlocks size step iv blocks =
      ((chain step iv (Bytes.cut size count blocks)).1,
        (chain step iv (Bytes.cut size count blocks)).2.flatten) := by
  have counted : blocks.length / size = count := by
    rw [width, Nat.mul_div_cancel _ positive]
  have rest : blocks.drop (count * size) = [] := List.drop_eq_nil_of_le (Nat.le_of_eq width)
  simp only [runBlocks, counted, rest, List.append_nil]

variable (functions : BlockFunctions) (context : Bytes)

/-- Masks with the chaining value, encrypts, and chains the output. -/
def cbcEncryptStep (iv block : Bytes) : Bytes × Bytes :=
  let sealed := functions.encrypt context (Bytes.mask block iv)
  (sealed, sealed)

/-- Decrypts, masks with the chaining value, and chains the input. -/
def cbcDecryptStep (iv block : Bytes) : Bytes × Bytes :=
  (block, Bytes.mask (functions.decrypt context block) iv)

/-- Encrypts the chaining value and feeds the block through it. -/
def cfbStep (direction : Direction) (iv block : Bytes) : Bytes × Bytes :=
  feed direction (functions.encrypt context iv) block

/-- Masks the chaining value with the block and encrypts it. -/
def cbcMacStep (iv block : Bytes) : Bytes :=
  functions.encrypt context (Bytes.mask iv block)

end Bulk

/-- The bulk routines of a cipher with blocks of `size` bytes: five loops, to encrypt, decrypt and
authenticate in block chaining and to encrypt and decrypt in cipher feedback. The built-in AES has
these loops, and so has the counting stand-in for a cipher; theirs differ in the functions on
blocks and in nothing else. -/
def BlockFunctions.toBulk (functions : BlockFunctions) (size : Nat) {m : Type → Type} [Monad m] :
    BulkRoutines m where
  cbcEncrypt context iv buffer :=
    pure (Bulk.runBlocks size (Bulk.cbcEncryptStep functions context) iv buffer)
  cbcDecrypt context iv buffer :=
    pure (Bulk.runBlocks size (Bulk.cbcDecryptStep functions context) iv buffer)
  cfbEncrypt context iv buffer :=
    pure (Bulk.runBlocks size (Bulk.cfbStep functions context .encrypt) iv buffer)
  cfbDecrypt context iv buffer :=
    pure (Bulk.runBlocks size (Bulk.cfbStep functions context .decrypt) iv buffer)
  cbcMac context iv buffer :=
    pure ((Bytes.cut size (buffer.length / size) buffer).foldl
      (Bulk.cbcMacStep functions context) iv)

end CipherEngine
