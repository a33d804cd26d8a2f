import CipherEngine.Proofs.Chaining.Stealing
import CipherEngine.Proofs.Chaining.Textbook
import CipherEngine.Proofs.Specimen

/-!
# Stolen ciphertext by number

In the textbook, ciphertext stealing pads the message with zero bytes to whole blocks and
chains them. What is put out are the ciphertext blocks in order, but for the last two: the
last one stands before the one before it, of which only as many bytes are kept as the last
block of the message has. Nothing is stolen in place there, and an aligned message is no
case of its own: its last two blocks are swapped as well.
-/
namespace CipherEngine

namespace Textbook

section Definitions

variable (functions : BlockFunctions) (context : Bytes) (size : Nat)

/-- Bytes in the last block of a message: what is over, or a whole block if nothing is. -/
def lastLength (length : Nat) : Nat :=
  if length % size = 0 then size else length % size

/-- The message with zero bytes behind it, up to the end of its last block. -/
def padded (message : Bytes) : Bytes :=
  message ++ Bytes.zeros (Bytes.blockCount size message.length * size - message.length)

/-- The ciphertext with its last two blocks swapped, and the one that is put last cut to the
bytes of the last block of the message. -/
def swapped (iv message : Bytes) : Bytes :=
  let count := Bytes.blockCount size message.length
  let sealed := sealedBlock functions context size iv (padded size message)
  ((List.range (count - 2)).map fun number => sealed (number + 1)).flatten ++
    (sealed count ++ (sealed (count - 1)).take (lastLength size message.length))

end Definitions

variable {functions : BlockFunctions} {context : Bytes} {size : Nat} {iv : Bytes}

/-- Behind whole blocks, what is at most a block is the last one. -/
theorem lastLength_add {count tail : Nat} (filled : 0 < tail) (short : tail ≤ size) :
    lastLength size (count * size + tail) = tail := by
  rw [lastLength, Nat.mul_comm, Nat.mul_add_mod]
  by_cases whole : tail = size
  · rw [whole, Nat.mod_self, if_pos rfl]
  · have below : tail < size := Nat.lt_of_le_of_ne short whole
    rw [Nat.mod_eq_of_lt below, if_neg (Nat.ne_of_gt filled)]

/-- Behind whole blocks, only the last one is padded. -/
theorem padded_append {front tail : Bytes} {count : Nat} (width : front.length = count * size)
    (filled : 0 < tail.length) (short : tail.length ≤ size) :
    padded size (front ++ tail) = front ++ Bytes.fit size tail := by
  have total : (front ++ tail).length = count * size + tail.length := by
    rw [List.length_append, width]
  have missing : (count + 1) * size - (count * size + tail.length) = size - tail.length := by
    rw [Nat.succ_mul, Nat.add_sub_add_left]
  rw [padded, total, Bytes.blockCount_add filled short, missing, List.append_assoc,
    Bytes.fit_append short]

/-- The block behind leading blocks has their number. -/
theorem block_append {front middle : Bytes} {number : Nat}
    (frontWidth : front.length = number * size) (middleWidth : middle.length = size)
    (rest : Bytes) :
    block size number (front ++ (middle ++ rest)) = middle := by
  have found := Bytes.window_middle front middle rest
  rwa [frontWidth, middleWidth] at found

/-- Leading blocks are encrypted as their numbers say, whatever stands behind them. -/
theorem runBlocks_front (positive : 0 < size) {body : Bytes} {before : Nat}
    (width : body.length = before * size) (rest : Bytes) :
    let sealed := sealedBlock functions context size iv (body ++ rest)
    Bulk.runBlocks size (Bulk.cbcEncryptStep functions context) iv body =
      (sealed before, ((List.range before).map fun number => sealed (number + 1)).flatten) := by
  intro sealed
  have numbered : Bulk.chain (Bulk.cbcEncryptStep functions context) iv
      (Bytes.cut size before (body ++ rest)) =
        (sealed before, (List.range before).map fun number => sealed (number + 1)) :=
    Bulk.chain_numbered (Bulk.cbcEncryptStep functions context) sealed (fun _ => rfl) before
  rw [Bytes.cut_append (Nat.le_of_eq width.symm)] at numbered
  rw [Bulk.runBlocks_whole _ _ positive width, numbered]

/-- What stealing puts out, of leading blocks, the last block before the tail and the tail. -/
theorem swapped_append {body block tail : Bytes} {before : Nat}
    (bodyWidth : body.length = before * size) (blockWidth : block.length = size)
    (filled : 0 < tail.length) (short : tail.length ≤ size) :
    let passed := Bulk.runBlocks size (Bulk.cbcEncryptStep functions context) iv body
    let last := functions.encrypt context (Bytes.mask block passed.1)
    let ending := functions.encrypt context (Bytes.mask (Bytes.fit size tail) last)
    let message := body ++ (block ++ tail)
    sealedBlock functions context size iv (padded size message)
        (Bytes.blockCount size message.length) = ending ∧
      swapped functions context size iv message =
        passed.2 ++ (ending ++ last.take tail.length) := by
  intro passed last ending message
  have positive : 0 < size := Nat.lt_of_lt_of_le filled short
  have frontWidth : (body ++ block).length = (before + 1) * size := by
    rw [List.length_append, bodyWidth, blockWidth, Nat.succ_mul]
  have total : message.length = (before + 1) * size + tail.length := by
    rw [← frontWidth, ← List.length_append, List.append_assoc]
  have count : Bytes.blockCount size message.length = before + 2 := by
    rw [total, Bytes.blockCount_add filled short]
  have ended : lastLength size message.length = tail.length := by
    rw [total, lastLength_add filled short]
  have pad : padded size message = body ++ (block ++ Bytes.fit size tail) := by
    have behind := padded_append frontWidth filled short
    rwa [List.append_assoc, List.append_assoc] at behind
  let sealed := sealedBlock functions context size iv (padded size message)
  have front : passed = (sealed before,
      ((List.range before).map fun number => sealed (number + 1)).flatten) := by
    have run : passed = _ := runBlocks_front positive bodyWidth (block ++ Bytes.fit size tail)
    rwa [← pad] at run
  have chained : passed.1 = sealed before := congrArg Prod.fst front
  have lastSealed : sealed (before + 1) = last := by
    have found := block_append bodyWidth blockWidth (Bytes.fit size tail)
    rw [← pad] at found
    calc sealed (before + 1)
        = functions.encrypt context
            (Bytes.mask (Textbook.block size before (padded size message)) (sealed before)) := rfl
      _ = last := by rw [found, ← chained]
  have endingSealed : sealed (before + 2) = ending := by
    have found := block_append frontWidth (Bytes.length_fit size tail) []
    rw [List.append_nil, List.append_assoc, ← pad] at found
    calc sealed (before + 2)
        = functions.encrypt context (Bytes.mask
            (Textbook.block size (before + 1) (padded size message)) (sealed (before + 1))) := rfl
      _ = ending := by rw [found, lastSealed]
  have swappedEnds : swapped functions context size iv message =
      passed.2 ++ (sealed (before + 2) ++ (sealed (before + 1)).take tail.length) := by
    rw [swapped, count, ended, front]
    rfl
  rw [count, swappedEnds, lastSealed, endingSealed]
  exact ⟨endingSealed, rfl⟩

end Textbook

namespace BlockChaining

variable {m : Type → Type} [Monad m] [LawfulMonad m] {cipher : KeyedCipher m}
  {functions : BlockFunctions} {size : Nat}

/-- A message of more than one block, whether it is aligned or not, is encrypted to the textbook
ciphertext with its last two blocks swapped, which is as long as the message, and the last
ciphertext block is what is left as the chaining value. A shorter message is encrypted as it is
without stealing, and one of whole blocks to the textbook ciphertext. -/
theorem encrypt_stealing_textbook (computes : cipher.Computes functions size)
    (positive : 0 < size) {chain : Chain} (width : chain.iv.length = size) (message : Bytes) :
    (size < message.length →
      Gives (encrypt cipher true chain message)
          ({ chain with
              iv := Textbook.sealedBlock functions cipher.context size chain.iv
                (Textbook.padded size message) (Bytes.blockCount size message.length) },
            Textbook.swapped functions cipher.context size chain.iv message) ∧
        (Textbook.swapped functions cipher.context size chain.iv message).length =
          message.length) ∧
    (message.length ≤ size →
      encrypt cipher true chain message = encrypt cipher false chain message ∧
        (size ∣ message.length →
          Gives (encrypt cipher true chain message)
            ({ chain with iv := Textbook.last functions cipher.context size chain.iv message },
              Textbook.encryption functions cipher.context size chain.iv message))) := by
  constructor
  · intro long
    obtain ⟨before, body, block, tail, rfl, bodyWidth, blockWidth, filled, short⟩ :=
      eq_append_of_long positive long
    obtain ⟨left, out⟩ := @Textbook.swapped_append functions cipher.context size chain.iv
      body block tail before bodyWidth blockWidth filled short
    obtain ⟨passedWidth, lastWidth, endingWidth⟩ :=
      length_stealing computes positive width bodyWidth blockWidth tail
    rw [left, out]
    refine ⟨encrypt_stealing_gives computes width bodyWidth blockWidth filled short, ?_⟩
    simp only [List.length_append, List.length_take, passedWidth, lastWidth, endingWidth,
      blockWidth, Nat.min_eq_left short]
  · intro short
    have keeps (stealing : Bool) : steals stealing message.length size = false := by
      rw [steals, decide_eq_false (Nat.not_lt.mpr short), Bool.and_false]
    constructor
    · rw [encrypt, encrypt, Chain.blockLength, width, keeps, keeps]
    · intro aligned
      have given := encrypt_gives computes positive width (keeps true) aligned
      rwa [Textbook.runBlocks_encrypt positive computes.lengthEncrypt width aligned] at given

/-- The specimen with its bulk routines, of a block of zeros and the bytes from one to four,
and of the block alone. -/
theorem encrypt_stealing_textbook_specimen :
    let cipher : KeyedCipher Id :=
      ⟨Standin.Flip.blockFunctions.toTransform, some (Standin.Flip.blockFunctions.toBulk 16),
        Bytes.zeros 16⟩
    let chain : Chain := ⟨Bytes.zeros 16, Bytes.zeros 16, Bytes.zeros 16, Bytes.zeros 16, 0⟩
    Gives (encrypt cipher true chain (Bytes.zeros 16 ++ [1, 2, 3, 4]))
        ({ chain with iv := Bytes.fit 16 [1, 2, 3, 4] },
          Bytes.fit 16 [1, 2, 3, 4] ++ List.replicate 4 0xFF) ∧
      Gives (encrypt cipher true chain (Bytes.zeros 16))
        ({ chain with iv := List.replicate 16 0xFF }, List.replicate 16 0xFF) := by
  intro cipher chain
  have computes : cipher.Computes Standin.Flip.blockFunctions 16 :=
    Specimen.computes _ rfl (Bytes.zeros 16) rfl
  have width : chain.iv.length = 16 := rfl
  constructor
  · have long := (encrypt_stealing_textbook computes (by decide) width
      (Bytes.zeros 16 ++ [1, 2, 3, 4])).1 (by decide)
    exact long.1
  · have short := (encrypt_stealing_textbook computes (by decide) width
      (Bytes.zeros 16)).2 (by decide)
    exact short.2 (by decide)

end BlockChaining

end CipherEngine
