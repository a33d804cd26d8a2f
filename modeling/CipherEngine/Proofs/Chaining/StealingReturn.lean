import CipherEngine.Proofs.Chaining.Drift
import CipherEngine.Proofs.Specimen

/-!
# Stealing both ways

Where the block functions undo each other, chaining with stealing is a bijection on the
messages of more than one block: from one chaining value, what was encrypted is decrypted to
the message, and what was decrypted is encrypted to it again. Nothing is said of the chaining
values that are left, which differ between the two directions.

The first half is a drift from one chaining value, which opens every message as it is. The
second is a computation of its own: any bytes can be decrypted, so the tail that is put out is
not the padded tail of a message. What the swapped block opens to is split between the tail
and the block that is rebuilt, and encryption joins the two halves again.
-/
namespace CipherEngine.BlockChaining

variable {functions : BlockFunctions} {size : Nat}

/-- Encryption takes a block back that decryption has chained, and hands it on. -/
theorem step_restores {context : Bytes} (inverse : functions.MutuallyInverse context size) :
    Bulk.Undoes size (Bulk.cbcEncryptStep functions context)
      (Bulk.cbcDecryptStep functions context) := by
  intro iv block _ blockWidth
  have sealed := inverse.seals block blockWidth
  simp only [Bulk.cbcDecryptStep, Bulk.cbcEncryptStep, Bytes.mask_mask, sealed]

/-- The bytes that were opened for the tail, masked with the tail and padded, are masked by the
rebuilt block to all that the swapped block was opened to. -/
theorem mask_rebuilt {opened tail : Bytes} (width : opened.length = size)
    (short : tail.length ≤ size) :
    let last := tail ++ opened.drop tail.length
    Bytes.mask (Bytes.fit size (Bytes.mask (opened.take tail.length) tail)) last = opened := by
  intro last
  have taken : (opened.take tail.length).length = tail.length := by
    rw [List.length_take, width, Nat.min_eq_left short]
  have plainWidth : (Bytes.mask (opened.take tail.length) tail).length = tail.length :=
    (Bytes.length_mask _ _).trans taken
  have lastWidth : last.length = size := by
    rw [List.length_append, List.length_drop, width, Nat.add_sub_cancel' short]
  have used : Bytes.mask (Bytes.mask (opened.take tail.length) tail) last =
      opened.take tail.length := by
    have front := Bytes.mask_take (Bytes.mask (opened.take tail.length) tail) last
    rw [plainWidth, List.take_left, Bytes.mask_mask] at front
    exact front.symm
  rw [mask_fit lastWidth (plainWidth.symm ▸ short), used, plainWidth, List.drop_left,
    List.take_append_drop]

variable {m : Type → Type} [Monad m] [LawfulMonad m] {cipher : KeyedCipher m}

/-- What decryption with stealing has put out is as long as what came in, and encrypted from the
same chaining value it is that again. -/
theorem encrypt_opened_gives (computes : cipher.Computes functions size)
    (inverse : functions.MutuallyInverse cipher.context size) {chain : Chain}
    (width : chain.iv.length = size) {body swapped tail : Bytes} {before : Nat}
    (bodyWidth : body.length = before * size) (swappedWidth : swapped.length = size)
    (filled : 0 < tail.length) (short : tail.length ≤ size) :
    let passed := Bulk.runBlocks size (Bulk.cbcDecryptStep functions cipher.context) chain.iv body
    let opened := functions.decrypt cipher.context swapped
    let last := tail ++ opened.drop tail.length
    let message := passed.2 ++ (Bytes.mask (functions.decrypt cipher.context last) passed.1 ++
      Bytes.mask (opened.take tail.length) tail)
    message.length = (body ++ (swapped ++ tail)).length ∧
      Gives (encrypt cipher true chain message)
        ({ chain with iv := swapped }, body ++ (swapped ++ tail)) := by
  intro passed opened last message
  let plain := Bytes.mask (functions.decrypt cipher.context last) passed.1
  let plainTail := Bytes.mask (opened.take tail.length) tail
  have positive : 0 < size := Nat.lt_of_lt_of_le filled short
  have aligned : size ∣ body.length := bodyWidth ▸ Nat.dvd_mul_left size before
  have sized := decryptStep_sized computes
  have outputWidth : passed.2.length = body.length :=
    (Bulk.runBlocks_sized sized positive width aligned).2
  have openedWidth : opened.length = size := computes.lengthDecrypt swapped swappedWidth
  have lastWidth : last.length = size := by
    rw [List.length_append, List.length_drop, openedWidth, Nat.add_sub_cancel' short]
  have plainWidth : plain.length = size :=
    (Bytes.length_mask _ _).trans (computes.lengthDecrypt last lastWidth)
  have plainTailWidth : plainTail.length = tail.length := by
    rw [Bytes.length_mask, List.length_take, openedWidth, Nat.min_eq_left short]
  -- The leading blocks, the rebuilt block and the swapped block are each taken back.
  have restored : Bulk.runBlocks size (Bulk.cbcEncryptStep functions cipher.context) chain.iv
      passed.2 = (passed.1, body) :=
    Bulk.runBlocks_undoes (step_restores inverse) sized positive width aligned
  have rebuilt : functions.encrypt cipher.context (Bytes.mask plain passed.1) = last := by
    rw [Bytes.mask_mask, inverse.seals last lastWidth]
  have padded : Bytes.mask (Bytes.fit size plainTail) last = opened :=
    mask_rebuilt openedWidth short
  have swappedBack : functions.encrypt cipher.context opened = swapped :=
    inverse.seals swapped swappedWidth
  have stolen : last.take plainTail.length = tail := by
    rw [plainTailWidth, List.take_left]
  have encrypted := encrypt_stealing_gives computes width (outputWidth.trans bodyWidth) plainWidth
    (plainTailWidth.symm ▸ filled) (plainTailWidth.symm ▸ short)
  simp only [restored, rebuilt, padded, swappedBack, stolen] at encrypted
  refine ⟨?_, encrypted⟩
  simp only [message, List.length_append, outputWidth, plainWidth, plainTailWidth, swappedWidth,
    plain, plainTail]

/-- With bulk routines or without, a message of more than one block that is encrypted with
stealing and then decrypted from the same chaining value comes back, and so does one that is
decrypted and then encrypted. Both calls go through, and what stands between them is as long
as the message. -/
theorem stealing_bijective (computes : cipher.Computes functions size)
    (inverse : functions.MutuallyInverse cipher.context size) {chain other : Chain}
    (fits : chain.Fits size) (otherFits : other.Fits size) (alike : other.iv = chain.iv)
    {message : Bytes} (long : size < message.length) :
    (∃ left ciphertext last, ciphertext.length = message.length ∧
        Gives (encrypt cipher true chain message) (left, ciphertext) ∧
        Gives (decrypt cipher true other ciphertext) (last, message)) ∧
      ∃ left plaintext last, plaintext.length = message.length ∧
        Gives (decrypt cipher true chain message) (left, plaintext) ∧
        Gives (encrypt cipher true other plaintext) (last, message) := by
  constructor
  · obtain ⟨_, ciphertext, _, _, _, width, encrypted, decrypted⟩ :=
      drifts_several computes inverse.opens fits otherFits long
    have together : Bytes.mask message (Bytes.mask chain.iv other.iv) = message := by
      rw [Bytes.mask_eq_self_iff (fits.iv.trans otherFits.iv.symm)
        (fits.iv.symm ▸ Nat.le_of_lt long)]
      exact alike.symm
    rw [together] at decrypted
    exact ⟨_, ciphertext, _, width, encrypted, decrypted⟩
  · obtain ⟨before, body, swapped, tail, rfl, bodyWidth, swappedWidth, filled, short⟩ :=
      eq_append_of_long fits.positive long
    have decrypted := decrypt_stealing_gives computes fits bodyWidth swappedWidth filled short
    obtain ⟨width, encrypted⟩ := encrypt_opened_gives computes inverse otherFits.iv bodyWidth
      swappedWidth filled short
    rw [alike] at width encrypted
    exact ⟨_, _, _, width, decrypted, encrypted⟩

/-- The specimen with its bulk routines, and a block of zeros before the bytes from one to four. -/
theorem stealing_bijective_specimen :
    let cipher : KeyedCipher Id :=
      ⟨Standin.Flip.blockFunctions.toTransform, some (Standin.Flip.blockFunctions.toBulk 16),
        Bytes.zeros 16⟩
    let chain : Chain := ⟨Bytes.zeros 16, Bytes.zeros 16, Bytes.zeros 16, Bytes.zeros 16, 0⟩
    let message := Bytes.zeros 16 ++ [1, 2, 3, 4]
    Standin.Flip.blockFunctions.MutuallyInverse cipher.context 16 ∧
      (∃ left ciphertext last, ciphertext.length = 20 ∧
        Gives (encrypt cipher true chain message) (left, ciphertext) ∧
        Gives (decrypt cipher true chain ciphertext) (last, message)) ∧
      ∃ left plaintext last, plaintext.length = 20 ∧
        Gives (decrypt cipher true chain message) (left, plaintext) ∧
        Gives (encrypt cipher true chain plaintext) (last, message) := by
  intro cipher chain message
  have computes : cipher.Computes Standin.Flip.blockFunctions 16 :=
    Specimen.computes _ rfl (Bytes.zeros 16) rfl
  have inverse : Standin.Flip.blockFunctions.MutuallyInverse cipher.context 16 :=
    ⟨Specimen.invertible cipher.context 16, Specimen.invertible cipher.context 16⟩
  have fits : chain.Fits 16 := ⟨rfl, rfl, rfl, rfl, by decide⟩
  have long : 16 < message.length := by decide
  exact ⟨inverse, stealing_bijective computes inverse fits fits rfl long⟩

end CipherEngine.BlockChaining
