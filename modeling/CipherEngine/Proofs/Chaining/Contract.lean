import CipherEngine.Algorithm
import CipherEngine.Chaining.Bulk
import CipherEngine.Proofs.Computation

/-!
# What a primitive is trusted with

The engine calls a cipher that it cannot look into. Statements about messages
therefore name two functions on blocks and assume that the cipher returns their
values, on blocks of the declared length and under contexts of the declared
size, and that blocks keep their length. Bulk routines, where a cipher has them,
are assumed to return on whole blocks what those two functions return block by
block. Nothing is assumed on other lengths, and a cipher may count or record its
calls as it likes.

A chain `Fits` when its buffers have the block length; the transforms of every
mode are stated for such chains, and keep them so.
-/
namespace CipherEngine

variable {m : Type → Type}

/-- On whole blocks of `size` bytes, the bulk routines return the blocks and the
chaining value of the block by block computation. -/
structure BulkRoutines.Honours [Functor m] (bulk : BulkRoutines m) (functions : BlockFunctions)
    (context : Bytes) (size : Nat) : Prop where
  cbcEncrypt : ∀ iv blocks, iv.length = size → size ∣ blocks.length →
    Yields (bulk.cbcEncrypt context iv blocks)
      (Bulk.runBlocks size (Bulk.cbcEncryptStep functions context) iv blocks)
  cbcDecrypt : ∀ iv blocks, iv.length = size → size ∣ blocks.length →
    Yields (bulk.cbcDecrypt context iv blocks)
      (Bulk.runBlocks size (Bulk.cbcDecryptStep functions context) iv blocks)
  cfbEncrypt : ∀ iv blocks, iv.length = size → size ∣ blocks.length →
    Yields (bulk.cfbEncrypt context iv blocks)
      (Bulk.runBlocks size (Bulk.cfbStep functions context .encrypt) iv blocks)
  cfbDecrypt : ∀ iv blocks, iv.length = size → size ∣ blocks.length →
    Yields (bulk.cfbDecrypt context iv blocks)
      (Bulk.runBlocks size (Bulk.cfbStep functions context .decrypt) iv blocks)
  cbcMac : ∀ iv blocks, iv.length = size → size ∣ blocks.length →
    Yields (bulk.cbcMac context iv blocks)
      ((Bytes.cut size (blocks.length / size) blocks).foldl (Bulk.cbcMacStep functions context) iv)

/-- The keyed cipher transforms blocks of `size` bytes as the functions do. -/
structure KeyedCipher.Computes [Functor m] (cipher : KeyedCipher m) (functions : BlockFunctions)
    (size : Nat) : Prop where
  encrypts : ∀ block, block.length = size →
    Yields (cipher.block.encrypt cipher.context block) (functions.encrypt cipher.context block)
  decrypts : ∀ block, block.length = size →
    Yields (cipher.block.decrypt cipher.context block) (functions.decrypt cipher.context block)
  lengthEncrypt : ∀ block, block.length = size →
    (functions.encrypt cipher.context block).length = size
  lengthDecrypt : ∀ block, block.length = size →
    (functions.decrypt cipher.context block).length = size
  bulk : ∀ bulk, cipher.bulk = some bulk → bulk.Honours functions cipher.context size

/-- The primitive, under every context of the declared size, transforms blocks
of the declared length as the functions do. -/
def Algorithm.Computes [Functor m] (algorithm : Algorithm m) (functions : BlockFunctions) : Prop :=
  ∀ block, algorithm.primitive.block = some block →
    ∀ context, context.length = algorithm.contextSize.toNat →
      KeyedCipher.Computes ⟨block, algorithm.primitive.bulk, context⟩ functions
        algorithm.blockLength.toNat

/-- The primitive takes a key as the function does, and keeps the size of the context. -/
structure Algorithm.Keys [Functor m] (algorithm : Algorithm m)
    (keying : (context key : Bytes) → Keying) : Prop where
  yields : ∀ context key, context.length = algorithm.contextSize.toNat →
    Yields (algorithm.primitive.setKey context key) (keying context key)
  length : ∀ context key, context.length = algorithm.contextSize.toNat →
    (keying context key).context.length = algorithm.contextSize.toNat

/-- Under the context, decryption of a block undoes its encryption. -/
def BlockFunctions.InvertibleUnder (functions : BlockFunctions) (context : Bytes) (size : Nat) :
    Prop :=
  ∀ block, block.length = size →
    functions.decrypt context (functions.encrypt context block) = block

/-- Under the context, encryption and decryption of a block undo each other. -/
structure BlockFunctions.MutuallyInverse (functions : BlockFunctions) (context : Bytes)
    (size : Nat) : Prop where
  opens : functions.InvertibleUnder context size
  seals : ∀ block, block.length = size →
    functions.encrypt context (functions.decrypt context block) = block

/-- Every buffer of the chain is one block long, and less than a block is carried. -/
structure Chain.Fits (size : Nat) (chain : Chain) : Prop where
  iv : chain.iv.length = size
  previous : chain.previous.length = size
  counter : chain.counter.length = size
  scratch : chain.scratch.length = size
  carry : chain.carry < size

/-- There are blocks to chain. -/
theorem Chain.Fits.positive {size : Nat} {chain : Chain} (fits : chain.Fits size) : 0 < size :=
  Nat.lt_of_le_of_lt (Nat.zero_le _) fits.carry

/-- A chain keeps its value as the previous one. -/
theorem Chain.Fits.keepPrevious_gives [Monad m] [LawfulMonad m] {size : Nat} {chain : Chain}
    (fits : chain.Fits size) :
    Gives (chain.keepPrevious : Checked m Chain) { chain with previous := chain.iv } := by
  rw [Chain.keepPrevious]
  exact Gives.bind (Checked.replace_gives (fits.iv.trans fits.previous.symm)) (Gives.pure _)

namespace KeyedCipher.Computes

variable [Monad m] [LawfulMonad m] {cipher : KeyedCipher m} {functions : BlockFunctions}
  {size : Nat}

/-- A block is encrypted to the value of the encryption function. -/
theorem encrypt_gives (computes : cipher.Computes functions size) {block : Bytes}
    (width : block.length = size) :
    Gives (cipher.encrypt block) (functions.encrypt cipher.context block) :=
  Gives.lift (computes.encrypts block width)

/-- A block is decrypted to the value of the decryption function. -/
theorem decrypt_gives (computes : cipher.Computes functions size) {block : Bytes}
    (width : block.length = size) :
    Gives (cipher.decrypt block) (functions.decrypt cipher.context block) :=
  Gives.lift (computes.decrypts block width)

/-- A chain whose value is kept and encrypted. -/
theorem advance_gives (computes : cipher.Computes functions size) {chain : Chain}
    (fits : chain.Fits size) :
    Gives (chain.advance cipher)
      { chain with previous := chain.iv, iv := functions.encrypt cipher.context chain.iv } := by
  rw [Chain.advance]
  apply Gives.bind fits.keepPrevious_gives
  exact Gives.bind (computes.encrypt_gives fits.iv) (Gives.pure _)

end KeyedCipher.Computes

/-- The bulk routines that are made from the functions return what they should. -/
theorem BlockFunctions.toBulk_honours [Monad m] [LawfulMonad m] (functions : BlockFunctions)
    (context : Bytes) (size : Nat) :
    (functions.toBulk size : BulkRoutines m).Honours functions context size := by
  constructor <;> intro _ _ _ _ <;> exact Yields.pure _

/-- A cipher that only computes transforms blocks as its functions do, with or without
bulk routines, if they keep the declared length of a block. -/
theorem Algorithm.computes_of_functions [Monad m] [LawfulMonad m] {algorithm : Algorithm m}
    {functions : BlockFunctions}
    (block : algorithm.primitive.block = some functions.toTransform)
    (bulk : ∀ bulk, algorithm.primitive.bulk = some bulk →
      bulk = functions.toBulk algorithm.blockLength.toNat)
    (lengths : ∀ context block, block.length = algorithm.blockLength.toNat →
      (functions.encrypt context block).length = block.length ∧
        (functions.decrypt context block).length = block.length) :
    algorithm.Computes functions := by
  intro transform present context _
  obtain rfl := Option.some.inj (block.symm.trans present)
  constructor
  · exact fun _ _ => Yields.pure _
  · exact fun _ _ => Yields.pure _
  · exact fun block width => (lengths context block width).1.trans width
  · exact fun block width => (lengths context block width).2.trans width
  · intro routines given
    rw [bulk routines given]
    exact functions.toBulk_honours context _

end CipherEngine
