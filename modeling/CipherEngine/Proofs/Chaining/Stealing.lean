import CipherEngine.Proofs.Chaining.BlockChaining

/-!
# Ciphertext stealing

A message of more than one block is given as its leading blocks, the last block
before the tail, and the tail. Encryption puts out the last ciphertext block and
then the front of the one before it; decryption rebuilds that block. The two are
written down here for themselves: which blocks each puts out, and which chaining
value each leaves behind.
-/
namespace CipherEngine.BlockChaining

variable {m : Type → Type} [Monad m] [LawfulMonad m] {cipher : KeyedCipher m}
  {functions : BlockFunctions} {size : Nat}

/-- All blocks that a message begins stand before the tail but the last. -/
theorem blocksBeforeTail_gives {length : Nat} (positive : 0 < size) (filled : 0 < length) :
    Gives (blocksBeforeTail length size : Checked m Nat) (Bytes.blockCount size length - 1) := by
  rw [blocksBeforeTail, Bytes.blockCount]
  apply Gives.bind (Checked.quotient_gives length positive)
  by_cases aligned : length % size = 0
  · have some : 1 ≤ length / size := by
      rw [Nat.one_le_div_iff positive]
      exact Nat.le_of_dvd filled (Nat.dvd_of_mod_eq_zero aligned)
    rw [if_pos aligned, if_pos aligned]
    exact Checked.subtract_gives some
  · rw [if_neg aligned, if_neg aligned]
    exact Gives.pure _

/-- A message of more than one block has a last block before its tail. -/
theorem eq_append_of_long (positive : 0 < size) {message : Bytes} (long : size < message.length) :
    ∃ before body block tail, message = body ++ (block ++ tail) ∧ body.length = before * size ∧
      block.length = size ∧ 0 < tail.length ∧ tail.length ≤ size := by
  let before := (message.length - 1) / size - 1
  have quotient := Nat.div_add_mod' (message.length - 1) size
  have rest := Nat.mod_lt (message.length - 1) positive
  have several : 1 ≤ (message.length - 1) / size := by
    rw [Nat.one_le_div_iff positive]
    omega
  have counted : (message.length - 1) / size = before + 1 := (Nat.sub_add_cancel several).symm
  rw [counted, Nat.succ_mul] at quotient
  have bodyWidth : (message.take (before * size)).length = before * size := by
    rw [List.length_take]
    omega
  have blockWidth : ((message.drop (before * size)).take size).length = size := by
    rw [List.length_take, List.length_drop]
    omega
  refine ⟨before, message.take (before * size), (message.drop (before * size)).take size,
    (message.drop (before * size)).drop size, ?_, bodyWidth, blockWidth, ?_, ?_⟩
  · rw [List.take_append_drop, List.take_append_drop]
  · rw [List.length_drop, List.length_drop]
    omega
  · rw [List.length_drop, List.length_drop]
    omega

/-- A padded block is masked as the bytes it has, and then holds the mask. -/
theorem mask_fit {tail block : Bytes} (width : block.length = size) (short : tail.length ≤ size) :
    Bytes.mask (Bytes.fit size tail) block =
      Bytes.mask tail block ++ block.drop tail.length := by
  have front : tail.length = (block.take tail.length).length := by
    rw [List.length_take]
    omega
  have back : (block.drop tail.length).length = size - tail.length := by
    rw [List.length_drop, width]
  have cut := Bytes.mask_append front (Bytes.zeros (size - tail.length)) (block.drop tail.length)
  rw [List.take_append_drop, Bytes.mask_zeros back, Bytes.mask_take] at cut
  rw [Bytes.fit_append short]
  exact cut

/-- The swap: the block that is put in the place of the last one before the tail encrypts
the padded tail, and the tail takes the front of that one. -/
theorem stealTail_gives (computes : cipher.Computes functions size) {chain : Chain}
    {block tail : Bytes} (width : block.length = size) (same : chain.iv = block)
    (short : tail.length ≤ size) :
    let last := functions.encrypt cipher.context (Bytes.mask (Bytes.fit size tail) block)
    Gives (stealTail cipher chain block tail)
      ({ chain with iv := last }, last ++ block.take tail.length) := by
  intro last
  have padded : (Bytes.mask (Bytes.fit size tail) block).length = size := by
    rw [Bytes.length_mask, Bytes.length_fit]
  have lastWidth : last.length = size := computes.lengthEncrypt _ padded
  have replaced : Gives (Checked.replace block
      (Bytes.mask tail block ++ block.drop tail.length) : Checked m Bytes)
      (Bytes.mask (Bytes.fit size tail) block) := by
    rw [← mask_fit width short]
    exact Checked.replace_gives (padded.trans width.symm)
  rw [stealTail, same]
  apply Gives.bind (Checked.split_gives (width.symm ▸ short))
  apply Gives.bind (Checked.split_gives (width.symm ▸ short))
  apply Gives.bind replaced
  apply Gives.bind (computes.encrypt_gives padded)
  exact Gives.bind (Checked.replace_gives (lastWidth.trans width.symm)) (Gives.pure _)

/-- Of leading blocks, a block and a tail, the lengths that stealing goes by. -/
theorem stealing_lengths {chain : Chain} (width : chain.iv.length = size)
    {body block tail : Bytes} {before : Nat} (bodyWidth : body.length = before * size)
    (blockWidth : block.length = size)
    (filled : 0 < tail.length) (short : tail.length ≤ size) :
    steals true (body ++ (block ++ tail)).length chain.blockLength = true ∧
      Gives (blocksBeforeTail (body ++ (block ++ tail)).length chain.blockLength : Checked m Nat)
        (before + 1) := by
  have total : (body ++ (block ++ tail)).length = (before + 1) * size + tail.length := by
    rw [List.length_append, List.length_append, bodyWidth, blockWidth, Nat.succ_mul, Nat.add_assoc]
  have several : size ≤ (before + 1) * size := Nat.le_mul_of_pos_left size (Nat.succ_pos before)
  rw [Chain.blockLength, width]
  constructor
  · rw [steals, total, Bool.true_and, decide_eq_true_iff]
    omega
  · have counted := blocksBeforeTail_gives (m := m) (Nat.lt_of_lt_of_le filled short)
      (Nat.lt_of_lt_of_le filled (Nat.le_add_left tail.length ((before + 1) * size)))
    rwa [Bytes.blockCount_add filled short, ← total] at counted

omit [LawfulMonad m] in
/-- Leading blocks are put out as they are long, and the last two as blocks. -/
theorem length_stealing (computes : cipher.Computes functions size) (positive : 0 < size)
    {iv : Bytes} (width : iv.length = size) {body block : Bytes} {before : Nat}
    (bodyWidth : body.length = before * size) (blockWidth : block.length = size) (tail : Bytes) :
    let passed := Bulk.runBlocks size (Bulk.cbcEncryptStep functions cipher.context) iv body
    let last := functions.encrypt cipher.context (Bytes.mask block passed.1)
    let swapped := functions.encrypt cipher.context (Bytes.mask (Bytes.fit size tail) last)
    passed.2.length = body.length ∧ last.length = size ∧ swapped.length = size := by
  intro passed last swapped
  have aligned : size ∣ body.length := bodyWidth ▸ Nat.dvd_mul_left size before
  have padded : (Bytes.mask (Bytes.fit size tail) last).length = size :=
    (Bytes.length_mask _ _).trans (Bytes.length_fit size tail)
  constructor
  · exact (Bulk.runBlocks_sized (encryptStep_sized computes) positive width aligned).2
  constructor
  · exact computes.lengthEncrypt _ ((Bytes.length_mask _ _).trans blockWidth)
  · exact computes.lengthEncrypt _ padded

/-- Encryption with stealing, of leading blocks, the last block before the tail and the
tail: the leading blocks are chained, and the last two are swapped. -/
theorem encrypt_stealing_gives (computes : cipher.Computes functions size) {chain : Chain}
    (width : chain.iv.length = size) {body block tail : Bytes} {before : Nat}
    (bodyWidth : body.length = before * size) (blockWidth : block.length = size)
    (filled : 0 < tail.length) (short : tail.length ≤ size) :
    let passed := Bulk.runBlocks size (Bulk.cbcEncryptStep functions cipher.context) chain.iv body
    let last := functions.encrypt cipher.context (Bytes.mask block passed.1)
    let swapped := functions.encrypt cipher.context (Bytes.mask (Bytes.fit size tail) last)
    Gives (encrypt cipher true chain (body ++ (block ++ tail)))
      ({ chain with iv := swapped }, passed.2 ++ (swapped ++ last.take tail.length)) := by
  intro passed last swapped
  have positive : 0 < size := Nat.lt_of_lt_of_le filled short
  have bodyAligned : size ∣ body.length := bodyWidth ▸ Nat.dvd_mul_left size before
  have blockAligned : size ∣ block.length := blockWidth ▸ Nat.dvd_refl size
  obtain ⟨stolen, counted⟩ := stealing_lengths (m := m) width bodyWidth blockWidth filled short
  obtain ⟨passedWidth, lastWidth, _⟩ :=
    length_stealing computes positive width bodyWidth blockWidth tail
  have aligned : size ∣ (body ++ block).length := by
    rw [List.length_append]
    exact Nat.dvd_add bodyAligned blockAligned
  have frontWidth : (body ++ block).length = (before + 1) * chain.blockLength := by
    rw [List.length_append, bodyWidth, blockWidth, Chain.blockLength, width, Nat.succ_mul]
  have cut := Checked.split_append_gives (m := m) frontWidth tail
  rw [List.append_assoc] at cut
  have run := encryptRun_gives computes positive width aligned
  rw [Bulk.runBlocks_append _ positive _ bodyAligned blockAligned,
    Bulk.runBlocks_block _ positive _ blockWidth] at run
  have outputWidth : passed.2.length = before * chain.blockLength := by
    rw [passedWidth, bodyWidth, Chain.blockLength, width]
  have lastCut := Checked.split_append_gives (m := m) outputWidth last
  have counts : Gives (Checked.subtract (before + 1) 1 : Checked m Nat) before :=
    Checked.subtract_gives (Nat.le_add_left 1 before)
  have chained : Chain.iv { chain with iv := last } = last := rfl
  have ending := stealTail_gives computes lastWidth chained short
  rw [encrypt, stolen]
  apply Gives.bind counted
  apply Gives.bind cut
  apply Gives.bind run
  apply Gives.bind counts
  apply Gives.bind lastCut
  exact Gives.bind ending (Gives.pure _)

/-- The swap undone: the swapped block completes the tail to the block that was before it,
and that block is decrypted and kept. -/
theorem returnTail_gives (computes : cipher.Computes functions size) {chain : Chain}
    {swapped tail : Bytes} (fits : chain.Fits size) (width : swapped.length = size)
    (short : tail.length ≤ size) :
    let opened := functions.decrypt cipher.context swapped
    let last := tail ++ opened.drop tail.length
    Gives (returnTail cipher chain swapped tail)
      ({ chain with iv := last, previous := chain.iv },
        Bytes.mask (functions.decrypt cipher.context last) chain.iv ++
          Bytes.mask (opened.take tail.length) tail) := by
  intro opened last
  have openedWidth : opened.length = size := computes.lengthDecrypt swapped width
  have lastWidth : last.length = size := by
    rw [List.length_append, List.length_drop, openedWidth, Nat.add_sub_cancel' short]
  have completed : Gives (Checked.replace chain.iv last : Checked m Bytes) last :=
    Checked.replace_gives (lastWidth.trans fits.iv.symm)
  rw [returnTail]
  apply Gives.bind fits.keepPrevious_gives
  apply Gives.bind (computes.decrypt_gives width)
  apply Gives.bind (Checked.split_gives (openedWidth.symm ▸ short))
  apply Gives.bind completed
  exact Gives.bind (computes.decrypt_gives lastWidth) (Gives.pure _)

/-- Decryption with stealing, of leading blocks, the swapped block and the tail: the leading
blocks are chained, and the swap is undone. -/
theorem decrypt_stealing_gives (computes : cipher.Computes functions size) {chain : Chain}
    (fits : chain.Fits size) {body swapped tail : Bytes} {before : Nat}
    (bodyWidth : body.length = before * size) (swappedWidth : swapped.length = size)
    (filled : 0 < tail.length) (short : tail.length ≤ size) :
    let passed := Bulk.runBlocks size (Bulk.cbcDecryptStep functions cipher.context) chain.iv body
    let opened := functions.decrypt cipher.context swapped
    let last := tail ++ opened.drop tail.length
    Gives (decrypt cipher true chain (body ++ (swapped ++ tail)))
      ({ chain with iv := last, previous := passed.1 },
        passed.2 ++ (Bytes.mask (functions.decrypt cipher.context last) passed.1 ++
          Bytes.mask (opened.take tail.length) tail)) := by
  intro passed opened last
  have positive : 0 < size := Nat.lt_of_lt_of_le filled short
  have aligned : size ∣ body.length := bodyWidth ▸ Nat.dvd_mul_left size before
  obtain ⟨stolen, counted⟩ := stealing_lengths (m := m) fits.iv bodyWidth swappedWidth filled short
  have counts : Gives (Checked.subtract (before + 1) 1 : Checked m Nat) before :=
    Checked.subtract_gives (Nat.le_add_left 1 before)
  have headWidth : body.length = before * chain.blockLength := by
    rw [bodyWidth, Chain.blockLength, fits.iv]
  have headCut := Checked.split_append_gives (m := m) headWidth (swapped ++ tail)
  have swappedBlock : swapped.length = chain.blockLength := swappedWidth.trans fits.iv.symm
  have endingCut := Checked.split_append_gives (m := m) swappedBlock tail
  obtain ⟨previous, previousWidth, run⟩ := decryptRun_gives computes fits aligned
  obtain ⟨passedWidth, _⟩ :=
    Bulk.runBlocks_sized (decryptStep_sized computes) positive fits.iv aligned
  have tailFits : Chain.Fits size { chain with iv := passed.1, previous } :=
    ⟨passedWidth, previousWidth, fits.counter, fits.scratch, fits.carry⟩
  have returned := returnTail_gives computes tailFits swappedWidth short
  rw [decrypt, stolen]
  apply Gives.bind counted
  apply Gives.bind counts
  apply Gives.bind headCut
  apply Gives.bind run
  apply Gives.bind endingCut
  exact Gives.bind returned (Gives.pure _)

end CipherEngine.BlockChaining
