import CipherEngine.Proofs.Chaining.BlockChaining

/-!
# Block chaining by number

In the textbook the blocks of a message have numbers. A ciphertext block is the encryption
of the plaintext block with its number, masked with the ciphertext block before it, and
before the first stands the initial chaining value; a plaintext block is the decryption of
the ciphertext block with its number, masked with the same. Nothing is handed on, and no
block is overwritten.

The runs over blocks, which hand a chaining value on, put out just this, and are left with
the last ciphertext block. Chaining into a MAC, which puts out nothing, is left with the same
block.
-/
namespace CipherEngine

namespace Textbook

section Definitions

variable (functions : BlockFunctions) (context : Bytes) (size : Nat)

/-- The block with a number, from zero on, of blocks of `size` bytes. -/
def block (number : Nat) (bytes : Bytes) : Bytes := Bytes.window (number * size) size bytes

/-- The ciphertext block with a number, from one on. The initial chaining value has number
zero. -/
def sealedBlock (iv plaintext : Bytes) : (number : Nat) → Bytes
  | 0 => iv
  | number + 1 =>
    functions.encrypt context
      (Bytes.mask (block size number plaintext) (sealedBlock iv plaintext number))

/-- The ciphertext of a plaintext of whole blocks. -/
def encryption (iv plaintext : Bytes) : Bytes :=
  ((List.range (plaintext.length / size)).map fun number =>
    sealedBlock functions context size iv plaintext (number + 1)).flatten

/-- The last ciphertext block, which is the initial chaining value if there is none. -/
def last (iv plaintext : Bytes) : Bytes :=
  Bytes.ending size (iv ++ encryption functions context size iv plaintext)

/-- The plaintext of a ciphertext of whole blocks. The block before a ciphertext block has its
number once the initial chaining value stands in front. -/
def decryption (iv ciphertext : Bytes) : Bytes :=
  ((List.range (ciphertext.length / size)).map fun number =>
    Bytes.mask (functions.decrypt context (block size number ciphertext))
      (block size number (iv ++ ciphertext))).flatten

end Definitions

end Textbook

/-- One more block is cut behind the others. -/
theorem Bytes.cut_succ (size count : Nat) (bytes : Bytes) :
    cut size (count + 1) bytes = cut size count bytes ++ [Textbook.block size count bytes] :=
  cut_add size count 1 bytes

/-- Masks of one length go either way. -/
theorem Bytes.mask_comm {first second : Bytes} (same : first.length = second.length) :
    mask first second = mask second first := by
  rw [mask, mask, List.drop_eq_nil_of_le (Nat.le_of_eq same),
    List.drop_eq_nil_of_le (Nat.le_of_eq same.symm), List.zipWith_comm]
  simp only [UInt8.xor_comm]

/-- Blocks that a step chains come out by number, if the values that the step hands on are
known by number. -/
theorem Bulk.chain_numbered (step : (iv block : Bytes) → Bytes × Bytes) (value : Nat → Bytes)
    {size : Nat} {message : Bytes}
    (next : ∀ number, (step (value number) (Textbook.block size number message)).1 =
      value (number + 1)) (count : Nat) :
    chain step (value 0) (Bytes.cut size count message) =
      (value count, (List.range count).map fun number =>
        (step (value number) (Textbook.block size number message)).2) := by
  induction count with
  | zero => rfl
  | succ count inductionHypothesis =>
    rw [Bytes.cut_succ, chain_append, inductionHypothesis, List.range_succ, List.map_append]
    exact congrArg (·, _) (next count)

/-- And so do whole blocks that a step is run over. -/
theorem Bulk.runBlocks_numbered (step : (iv block : Bytes) → Bytes × Bytes) (value : Nat → Bytes)
    {size : Nat} {message : Bytes}
    (next : ∀ number, (step (value number) (Textbook.block size number message)).1 =
      value (number + 1)) (positive : 0 < size) (aligned : size ∣ message.length) :
    runBlocks size step (value 0) message =
      (value (message.length / size), ((List.range (message.length / size)).map fun number =>
        (step (value number) (Textbook.block size number message)).2).flatten) := by
  rw [runBlocks_whole step _ positive (Nat.div_mul_cancel aligned).symm,
    chain_numbered step value next]

namespace Textbook

variable {functions : BlockFunctions} {context : Bytes} {size : Nat} {iv : Bytes}

/-- A block inside the message is whole. -/
theorem length_block {number : Nat} {message : Bytes}
    (inside : (number + 1) * size ≤ message.length) :
    (block size number message).length = size := by
  rw [Nat.succ_mul] at inside
  exact Bytes.length_window inside

/-- With the initial chaining value in front, every block has the next number. -/
theorem block_succ (width : iv.length = size) (number : Nat) (bytes : Bytes) :
    block size (number + 1) (iv ++ bytes) = block size number bytes := by
  rw [block, block, Bytes.window, Bytes.window, Nat.succ_mul, Nat.add_comm, ← List.drop_drop,
    List.drop_left' width]

/-- The initial chaining value in front has number zero. -/
theorem block_zero (width : iv.length = size) (bytes : Bytes) :
    block size 0 (iv ++ bytes) = iv := by
  rw [block, Bytes.window, Nat.zero_mul, List.drop_zero, List.take_left' width]

/-- Each ciphertext block is a block. -/
theorem length_sealedBlock
    (widths : ∀ block, block.length = size → (functions.encrypt context block).length = size)
    (width : iv.length = size) {plaintext : Bytes} {number : Nat}
    (inside : number * size ≤ plaintext.length) :
    (sealedBlock functions context size iv plaintext number).length = size := by
  cases number with
  | zero => exact width
  | succ number => exact widths _ ((Bytes.length_mask _ _).trans (length_block inside))

/-- The last ciphertext block has the number of the whole blocks. -/
theorem sealedBlock_eq_last
    (widths : ∀ block, block.length = size → (functions.encrypt context block).length = size)
    (width : iv.length = size) (plaintext : Bytes) :
    sealedBlock functions context size iv plaintext (plaintext.length / size) =
      last functions context size iv plaintext := by
  have sealedWidth := length_sealedBlock widths width (Nat.div_mul_le_self plaintext.length size)
  apply Bytes.eq_ending sealedWidth
  rw [encryption]
  cases plaintext.length / size with
  | zero => exact ⟨[], (List.append_nil iv).symm⟩
  | succ count =>
    rw [List.range_succ, List.map_append, List.flatten_append, ← List.append_assoc,
      List.map_singleton, List.flatten_singleton]
    exact List.suffix_append _ _

/-- A run that encrypts blocks puts out the textbook ciphertext, and is left with its last
block. -/
theorem runBlocks_encrypt (positive : 0 < size)
    (widths : ∀ block, block.length = size → (functions.encrypt context block).length = size)
    (width : iv.length = size) {plaintext : Bytes} (aligned : size ∣ plaintext.length) :
    Bulk.runBlocks size (Bulk.cbcEncryptStep functions context) iv plaintext =
      (last functions context size iv plaintext,
        encryption functions context size iv plaintext) := by
  have numbered := Bulk.runBlocks_numbered (Bulk.cbcEncryptStep functions context)
    (sealedBlock functions context size iv plaintext) (fun _ => rfl) positive aligned
  rw [sealedBlock_eq_last widths width] at numbered
  exact numbered

/-- A run that decrypts blocks puts out the textbook plaintext, and is left with the last block
of the ciphertext. -/
theorem runBlocks_decrypt (positive : 0 < size) (width : iv.length = size) {ciphertext : Bytes}
    (aligned : size ∣ ciphertext.length) :
    Bulk.runBlocks size (Bulk.cbcDecryptStep functions context) iv ciphertext =
      (Bytes.ending size (iv ++ ciphertext),
        decryption functions context size iv ciphertext) := by
  have last : block size (ciphertext.length / size) (iv ++ ciphertext) =
      Bytes.ending size (iv ++ ciphertext) := by
    have before : (iv ++ ciphertext).length - size = ciphertext.length := by
      rw [List.length_append, width, Nat.add_sub_cancel_left]
    have rest : ((iv ++ ciphertext).drop ciphertext.length).length = size := by
      rw [List.length_drop, List.length_append, width, Nat.add_sub_cancel]
    rw [block, Bytes.window, Bytes.ending, before, Nat.div_mul_cancel aligned,
      List.take_of_length_le (Nat.le_of_eq rest)]
  have numbered := Bulk.runBlocks_numbered (Bulk.cbcDecryptStep functions context)
    (fun number => block size number (iv ++ ciphertext))
    (fun number => (block_succ width number ciphertext).symm) positive aligned
  rw [block_zero width, last] at numbered
  exact numbered

/-- Chaining whole blocks into a MAC leaves the last block of the textbook ciphertext. -/
theorem foldl_mac
    (widths : ∀ block, block.length = size → (functions.encrypt context block).length = size)
    (width : iv.length = size) {message : Bytes} {count : Nat}
    (inside : count * size ≤ message.length) :
    (Bytes.cut size count message).foldl (Bulk.cbcMacStep functions context) iv =
      sealedBlock functions context size iv message count := by
  induction count with
  | zero => rfl
  | succ count inductionHypothesis =>
    have before : count * size ≤ message.length :=
      Nat.le_trans (Nat.mul_le_mul_right size (Nat.le_succ count)) inside
    have same := (length_sealedBlock widths width before).trans (length_block inside).symm
    rw [Bytes.cut_succ, List.foldl_append, inductionHypothesis before, List.foldl_cons,
      List.foldl_nil, Bulk.cbcMacStep, Bytes.mask_comm same, sealedBlock]

/-- The last ciphertext block is a block. -/
theorem length_last
    (widths : ∀ block, block.length = size → (functions.encrypt context block).length = size)
    (width : iv.length = size) (plaintext : Bytes) :
    (last functions context size iv plaintext).length = size := by
  rw [← sealedBlock_eq_last widths width]
  exact length_sealedBlock widths width (Nat.div_mul_le_self plaintext.length size)

/-- Before the first block stands the initial chaining value. -/
theorem last_nil (width : iv.length = size) : last functions context size iv [] = iv := by
  rw [last, encryption, List.length_nil, Nat.zero_div, List.range_zero, List.map_nil,
    List.flatten_nil, List.append_nil]
  exact (Bytes.eq_ending width List.suffix_rfl).symm

/-- The last ciphertext block of a message is the initial chaining value of what follows it. -/
theorem last_append (positive : 0 < size)
    (widths : ∀ block, block.length = size → (functions.encrypt context block).length = size)
    (width : iv.length = size) {first second : Bytes} (aligned : size ∣ first.length)
    (alignedAfter : size ∣ second.length) :
    last functions context size iv (first ++ second) =
      last functions context size (last functions context size iv first) second := by
  have total : size ∣ (first ++ second).length := by
    rw [List.length_append]
    exact Nat.dvd_add aligned alignedAfter
  have whole := Bulk.runBlocks_append (Bulk.cbcEncryptStep functions context) positive iv aligned
    alignedAfter
  rw [runBlocks_encrypt positive widths width total,
    runBlocks_encrypt positive widths width aligned,
    runBlocks_encrypt positive widths (length_last widths width first) alignedAfter] at whole
  exact (Prod.mk.inj whole).1

end Textbook

end CipherEngine
