import CipherEngine.Chaining.CipherFeedback
import CipherEngine.Proofs.Chaining.BlockSteps
import CipherEngine.Proofs.Chaining.Keystream

/-!
# Cipher feedback is byte by byte

A call may pass through the carry, whole blocks in bulk or one by one, one more
whole block and a partial block. Whatever it passes through, it returns the bytes
of the byte-by-byte machine, and leaves the chain of that machine up to the
previous chaining value, which is kept only where it can still be read.
-/
namespace CipherEngine.CipherFeedback

open Keystream

/-- From a block boundary, whole blocks pass byte by byte as they do block by
block. Only the previous chaining value differs. -/
theorem pass_blocks (functions : BlockFunctions) (context : Bytes) (direction : Direction)
    {size : Nat} (positive : 0 < size)
    (width : ∀ block, block.length = size → (functions.encrypt context block).length = size)
    (chain : Chain) (ivWidth : chain.iv.length = size) (boundary : chain.carry = 0)
    {blocks : List Bytes} (whole : ∀ block ∈ blocks, block.length = size) :
    let passed := passBytes (functions.encrypt context) (.ciphertext direction) chain blocks.flatten
    let chained := Bulk.chain (Bulk.cfbStep functions context direction) chain.iv blocks
    settle passed.1 = settle { chain with iv := chained.1 } ∧ passed.2 = chained.2.flatten := by
  induction blocks generalizing chain with
  | nil => exact ⟨rfl, rfl⟩
  | cons block rest inductionHypothesis =>
    have blockWidth : block.length = size := whole block List.mem_cons_self
    have padWidth : (functions.encrypt context chain.iv).length = size := width chain.iv ivWidth
    have filled : block ≠ [] := by
      intro empty
      rw [empty, List.length_nil] at blockWidth
      omega
    have first := pass_fresh (functions.encrypt context) (.ciphertext direction) chain boundary
      (padWidth.trans ivWidth.symm) filled (by omega)
    rw [leftOver_ciphertext direction (by omega), ivWidth, blockWidth, Nat.sub_self] at first
    have fedWidth :
        (feed direction (functions.encrypt context chain.iv) block).1.length = size := by
      rw [feed, Bytes.length_overlay, padWidth]
    have later := inductionHypothesis
      { chain with
        previous := chain.iv
        iv := (feed direction (functions.encrypt context chain.iv) block).1
        carry := 0 }
      fedWidth rfl fun other member => whole other (List.mem_cons_of_mem block member)
    rw [List.flatten_cons, pass_append, first]
    constructor
    · rw [later.1]
      simp [settle, boundary, Bulk.chain, Bulk.cfbStep]
    · rw [later.2]
      simp [Bulk.chain, Bulk.cfbStep, feed]

variable {m : Type → Type} {cipher : KeyedCipher m} {functions : BlockFunctions} {size : Nat}

/-- Feedback takes blocks to blocks. -/
theorem feedStep_sized [Functor m] (computes : cipher.Computes functions size)
    (direction : Direction) :
    Bulk.Sized size (Bulk.cfbStep functions cipher.context direction) := by
  intro iv block ivWidth blockWidth
  refine ⟨?_, (Bytes.length_mask _ _).trans blockWidth⟩
  rw [Bulk.cfbStep, feed, Bytes.length_overlay, computes.lengthEncrypt iv ivWidth]

variable [Monad m] [LawfulMonad m]

/-- Within the carry, a call is the byte-by-byte machine and cannot stop. -/
theorem fromCarry_gives (encipher : Bytes → Bytes) (direction : Direction) {chain : Chain}
    {buffer : Bytes} (fits : chain.Fits size) (short : buffer.length ≤ chain.carry) :
    Gives (fromCarry direction chain buffer : Checked m (Chain × Bytes))
      (passBytes encipher (.ciphertext direction) chain buffer) := by
  have width := fits.iv
  have carried := fits.carry
  have start : chain.carry ≤ chain.blockLength := by
    unfold Chain.blockLength
    omega
  have inside : chain.blockLength - chain.carry ≤ chain.iv.length := Nat.sub_le _ _
  have pad : chain.carry = (chain.iv.drop (chain.blockLength - chain.carry)).length := by
    unfold Chain.blockLength at start ⊢
    rw [List.length_drop]
    omega
  have fitsPad := short
  rw [pad] at fitsPad
  rw [pass_carried encipher _ chain (chain.iv.take (chain.blockLength - chain.carry)) _ buffer
    (List.take_append_drop _ _).symm pad fitsPad, ← pad, leftOver_ciphertext direction fitsPad]
  rw [fromCarry]
  apply Gives.bind (Checked.subtract_gives start)
  apply Gives.bind (Checked.split_gives inside)
  exact Gives.bind (Checked.subtract_gives short) (Gives.pure _)

/-- Feeding blocks one by one is the block by block computation. -/
theorem feedEach_gives (computes : cipher.Computes functions size) (direction : Direction)
    {iv : Bytes} (width : iv.length = size) (blocks : List Bytes) :
    Gives (feedEach cipher direction iv blocks)
      (Bulk.chain (Bulk.cfbStep functions cipher.context direction) iv blocks) := by
  induction blocks generalizing iv with
  | nil => exact Gives.pure _
  | cons block rest inductionHypothesis =>
    have pad := computes.lengthEncrypt iv width
    have next : (feed direction (functions.encrypt cipher.context iv) block).1.length = size := by
      rw [feed, Bytes.length_overlay, pad]
    rw [feedEach]
    apply Gives.bind (computes.encrypt_gives width)
    exact Gives.bind (inductionHypothesis next) (Gives.pure _)

/-- The leading blocks, in bulk or one by one, are so many whole blocks of the
buffer block by block, and less than two blocks are left. -/
theorem leadingBlocks_gives (computes : cipher.Computes functions size) (direction : Direction)
    {chain : Chain} (fits : chain.Fits size) (buffer : Bytes) :
    ∃ count, count * size ≤ buffer.length ∧
      let chained := Bulk.chain (Bulk.cfbStep functions cipher.context direction) chain.iv
        (Bytes.cut size count buffer)
      Gives (leadingBlocks cipher direction chain buffer)
        ({ chain with iv := chained.1 }, chained.2.flatten, buffer.drop (count * size)) ∧
      buffer.length - count * size < 2 * size := by
  have width := fits.iv
  have positive := fits.positive
  have blockLength : chain.blockLength = size := fits.iv
  rw [leadingBlocks, blockLength]
  by_cases few : buffer.length < 2 * size
  · refine ⟨0, by omega, ?_, by omega⟩
    rw [if_pos few]
    rw [Nat.zero_mul]
    exact Gives.pure _
  · rw [if_neg few]
    have all : buffer.length / size * size ≤ buffer.length := Nat.div_mul_le_self _ _
    have rest := Nat.mod_lt buffer.length positive
    have total := Nat.div_add_mod' buffer.length size
    have ready : ∀ count, count * size ≤ buffer.length →
        (buffer.take (count * size)).length = count * size := by
      intro count inside
      rw [List.length_take]
      omega
    cases accelerated : cipher.bulk with
    | some bulk =>
      have contract := computes.bulk bulk accelerated
      have wholeWidth := ready _ all
      have blocks : size ∣ (buffer.take (buffer.length / size * size)).length := by
        rw [wholeWidth]
        exact Nat.dvd_mul_left _ _
      refine ⟨buffer.length / size, all, ?_, by omega⟩
      apply Gives.bind (Checked.quotient_gives _ positive)
      apply Gives.bind (Checked.split_gives all)
      rw [← Bytes.cut_take]
      cases direction with
      | encrypt =>
        apply Gives.bind (Gives.lift (contract.cfbEncrypt _ _ width blocks))
        rw [Bulk.runBlocks_whole _ _ positive wholeWidth]
        exact Gives.pure _
      | decrypt =>
        apply Gives.bind (Gives.lift (contract.cfbDecrypt _ _ width blocks))
        rw [Bulk.runBlocks_whole _ _ positive wholeWidth]
        exact Gives.pure _
    | none =>
      have two : 2 ≤ buffer.length / size := (Nat.le_div_iff_mul_le positive).mpr (by omega)
      have fewer : (buffer.length / size - 1) * size = buffer.length / size * size - size := by
        rw [Nat.sub_mul, Nat.one_mul]
      have inside : (buffer.length / size - 1) * size ≤ buffer.length := by omega
      refine ⟨buffer.length / size - 1, inside, ?_, by omega⟩
      apply Gives.bind (Checked.quotient_gives _ positive)
      apply Gives.bind (Checked.subtract_gives (by omega))
      apply Gives.bind (Checked.split_gives inside)
      rw [← Bytes.cut_take]
      exact Gives.bind (feedEach_gives computes direction width _) (Gives.pure _)

/-- The leading blocks pass byte by byte: the same bytes come out, and the chains
settle to the same. -/
theorem leadingBlocks_pass (computes : cipher.Computes functions size) (direction : Direction)
    {chain : Chain} (fits : chain.Fits size) (boundary : chain.carry = 0) (buffer : Bytes) :
    ∃ count led, count ≤ buffer.length ∧ buffer.length - count < 2 * size ∧
      let passed := passBytes (functions.encrypt cipher.context) (.ciphertext direction) chain
        (buffer.take count)
      Gives (leadingBlocks cipher direction chain buffer) (led, passed.2, buffer.drop count) ∧
        led.Fits size ∧ led.carry = 0 ∧ settle led = settle passed.1 := by
  have positive := fits.positive
  obtain ⟨count, inside, leading, few⟩ := leadingBlocks_gives computes direction fits buffer
  have whole : ∀ block ∈ Bytes.cut size count buffer, block.length = size :=
    fun block member => Bytes.length_of_mem_cut inside member
  obtain ⟨sameChain, sameBytes⟩ := pass_blocks functions cipher.context direction positive
    computes.lengthEncrypt chain fits.iv boundary whole
  rw [Bytes.flatten_cut] at sameChain sameBytes
  have passedFits := pass_fits (functions.encrypt cipher.context) (.ciphertext direction)
    (buffer.take (count * size)) computes.lengthEncrypt fits
  have sameIv := congrArg Chain.iv sameChain
  rw [iv_settle, iv_settle] at sameIv
  refine ⟨count * size,
    { chain with
      iv := (Bulk.chain (Bulk.cfbStep functions cipher.context direction) chain.iv
        (Bytes.cut size count buffer)).1 },
    inside, few, ?_, ?_, boundary, sameChain.symm⟩
  · rw [sameBytes]
    exact leading
  · exact ⟨sameIv ▸ passedFits.iv, fits.previous, fits.counter, fits.scratch, fits.carry⟩

/-- From a block boundary, a whole block, if there is one, passes byte by byte. -/
theorem wholeBlock_gives (computes : cipher.Computes functions size) (direction : Direction)
    {chain : Chain} (fits : chain.Fits size) (boundary : chain.carry = 0) {buffer : Bytes}
    (few : buffer.length < 2 * size) :
    ∃ count, count ≤ buffer.length ∧ buffer.length - count < size ∧
      let passed := passBytes (functions.encrypt cipher.context) (.ciphertext direction) chain
        (buffer.take count)
      Gives (wholeBlock cipher direction chain buffer)
        (passed.1, passed.2, buffer.drop count) ∧ passed.1.carry = 0 := by
  have width := fits.iv
  have positive := fits.positive
  have blockLength : chain.blockLength = size := fits.iv
  rw [wholeBlock, blockLength]
  by_cases short : buffer.length < size
  · refine ⟨0, Nat.zero_le _, by omega, ?_, boundary⟩
    rw [if_pos short]
    exact Gives.pure _
  · have taken : (buffer.take size).length = size := by
      rw [List.length_take]
      omega
    have filled : buffer.take size ≠ [] := by
      intro empty
      rw [empty, List.length_nil] at taken
      omega
    have padWidth := computes.lengthEncrypt chain.iv width
    have passed := pass_fresh (functions.encrypt cipher.context) (.ciphertext direction) chain
      boundary (padWidth.trans width.symm) filled (by omega)
    rw [leftOver_ciphertext direction (by omega), width, taken, Nat.sub_self] at passed
    refine ⟨size, by omega, by omega, ?_, by rw [passed]⟩
    rw [if_neg short, passed]
    apply Gives.bind (Checked.split_gives (by omega))
    apply Gives.bind (computes.advance_gives fits)
    rw [← boundary]
    exact Gives.pure _

/-- From a block boundary, the last bytes pass byte by byte. -/
theorem partialBlock_gives (computes : cipher.Computes functions size) (direction : Direction)
    {chain : Chain} (fits : chain.Fits size) (boundary : chain.carry = 0) {buffer : Bytes}
    (short : buffer.length < size) :
    Gives (partialBlock cipher direction chain buffer)
      (passBytes (functions.encrypt cipher.context) (.ciphertext direction) chain buffer) := by
  rw [partialBlock]
  cases buffer with
  | nil => exact Gives.pure _
  | cons byte rest =>
    have width := fits.iv
    have padWidth := computes.lengthEncrypt chain.iv width
    rw [pass_fresh (functions.encrypt cipher.context) (.ciphertext direction) chain boundary
      (padWidth.trans width.symm) (List.cons_ne_nil byte rest) (by omega)]
    rw [leftOver_ciphertext direction (by omega)]
    apply Gives.bind (computes.advance_gives fits)
    have advanced : (byte :: rest).length ≤
        (functions.encrypt cipher.context chain.iv).length := by omega
    apply Gives.bind (Checked.subtract_gives advanced)
    rw [← padWidth.trans width.symm]
    exact Gives.pure _

/-- From a block boundary, a buffer passes as byte by byte: the same bytes come
out, and the chains settle to the same. -/
theorem fromBoundary_gives (computes : cipher.Computes functions size) (direction : Direction)
    {chain : Chain} (fits : chain.Fits size) (boundary : chain.carry = 0) (buffer : Bytes) :
    let passed := passBytes (functions.encrypt cipher.context) (.ciphertext direction) chain buffer
    ∃ after, Gives (fromBoundary cipher direction chain buffer) (after, passed.2) ∧
      after.Fits size ∧ settle after = settle passed.1 := by
  intro passed
  let encipher := functions.encrypt cipher.context
  obtain ⟨first, led, _, few, leading, ledFits, ledBoundary, sameChain⟩ :=
    leadingBlocks_pass computes direction fits boundary buffer
  have restFew : (buffer.drop first).length < 2 * size := by
    rw [List.length_drop]
    exact few
  obtain ⟨second, _, short, wholly, atBoundary⟩ :=
    wholeBlock_gives computes direction ledFits ledBoundary restFew
  have middleFits := pass_fits encipher (.ciphertext direction) ((buffer.drop first).take second)
    computes.lengthEncrypt ledFits
  have restShort : ((buffer.drop first).drop second).length < size := by
    rw [List.length_drop]
    exact short
  have ending := partialBlock_gives computes direction middleFits atBoundary restShort
  have cut : buffer = buffer.take first ++
      ((buffer.drop first).take second ++ (buffer.drop first).drop second) := by
    rw [List.take_append_drop, List.take_append_drop]
  -- From the leading blocks on, the machine continues from a chain that settles to the same.
  obtain ⟨sameEnd, sameBytes⟩ := pass_congr encipher (.ciphertext direction)
    ((buffer.drop first).take second ++ (buffer.drop first).drop second) sameChain
  have whole : passed = passBytes encipher (.ciphertext direction) chain (buffer.take first ++
      ((buffer.drop first).take second ++ (buffer.drop first).drop second)) :=
    congrArg (passBytes encipher (.ciphertext direction) chain) cut
  rw [pass_append] at sameEnd sameBytes whole
  refine ⟨_, ?_, pass_fits encipher (.ciphertext direction) ((buffer.drop first).drop second)
    computes.lengthEncrypt middleFits, ?_⟩
  · rw [fromBoundary, whole, ← sameBytes, ← List.append_assoc]
    apply Gives.bind leading
    apply Gives.bind wholly
    exact Gives.bind ending (Gives.pure _)
  · rw [whole, ← sameEnd]

/-- Every call in cipher feedback is the byte-by-byte machine: it returns the same
bytes, cannot stop, and leaves a chain that settles to the same. -/
theorem transform_gives (computes : cipher.Computes functions size) (direction : Direction)
    {chain : Chain} (fits : chain.Fits size) (buffer : Bytes) :
    let passed := passBytes (functions.encrypt cipher.context) (.ciphertext direction) chain buffer
    ∃ after, Gives (transform cipher direction chain buffer) (after, passed.2) ∧
      after.Fits size ∧ settle after = settle passed.1 := by
  intro passed
  let encipher := functions.encrypt cipher.context
  rw [transform]
  by_cases short : buffer.length ≤ chain.carry
  · rw [if_pos short]
    exact ⟨passed.1, fromCarry_gives encipher direction fits short,
      pass_fits encipher (.ciphertext direction) buffer computes.lengthEncrypt fits, rfl⟩
  · rw [if_neg short]
    have inside : chain.carry ≤ buffer.length := by omega
    have headWidth : (buffer.take chain.carry).length = chain.carry := by
      rw [List.length_take]
      omega
    have headShort : (buffer.take chain.carry).length ≤ chain.carry := Nat.le_of_eq headWidth
    have headFits := pass_fits encipher (.ciphertext direction) (buffer.take chain.carry)
      computes.lengthEncrypt fits
    have boundary : (passBytes encipher (.ciphertext direction) chain
        (buffer.take chain.carry)).1.carry = 0 := by
      rw [carry_pass _ _ _ headShort, headWidth, Nat.sub_self]
    obtain ⟨after, given, afterFits, same⟩ :=
      fromBoundary_gives computes direction headFits boundary (buffer.drop chain.carry)
    have whole : passed = passBytes encipher (.ciphertext direction) chain
        (buffer.take chain.carry ++ buffer.drop chain.carry) := by
      rw [List.take_append_drop]
    rw [pass_append] at whole
    refine ⟨after, ?_, afterFits, by rw [whole, ← same]⟩
    rw [whole]
    apply Gives.bind (Checked.split_gives inside)
    apply Gives.bind (fromCarry_gives encipher direction fits headShort)
    exact Gives.bind given (Gives.pure _)

/-- Inside a block a realignment goes through: the ciphertext of the chaining value moves to the
end, after the end of the previous chaining value. -/
theorem realign_gives {chain : Chain} (fits : chain.Fits size) (inside : chain.carry ≠ 0) :
    let kept := chain.blockLength - chain.carry
    let iv := chain.previous.drop kept ++ chain.iv.take kept
    iv.length = size ∧
      Gives (realign chain : Checked m Chain) { chain with iv, carry := 0 } := by
  intro kept iv
  have block : chain.blockLength = size := fits.iv
  have few : kept ≤ size := Nat.le_trans (Nat.sub_le _ _) (Nat.le_of_eq block)
  have width : iv.length = size := by
    simp only [iv, List.length_append, List.length_drop, List.length_take, fits.previous, fits.iv]
    omega
  refine ⟨width, ?_⟩
  rw [realign, if_neg inside]
  apply Gives.bind (Checked.subtract_gives (block.symm ▸ Nat.le_of_lt fits.carry))
  apply Gives.bind (Checked.split_gives (fits.iv.symm ▸ few))
  apply Gives.bind (Checked.split_gives (fits.previous.symm ▸ few))
  exact Gives.bind (Checked.replace_gives (width.trans fits.iv.symm)) (Gives.pure _)

end CipherEngine.CipherFeedback
