import CipherEngine.Chaining.BlockChaining
import CipherEngine.Proofs.Chaining.BlockSteps
import CipherEngine.Proofs.Chaining.Contract

/-!
# Cipher block chaining, block by block

Whether a cipher has bulk routines or not, whole blocks are chained as the block
functions do it. The two ways leave the same chaining value, and differ only in
the previous one, which decryption block by block overwrites; this mode never
reads it.
-/
namespace CipherEngine.BlockChaining

variable {m : Type → Type} {cipher : KeyedCipher m} {functions : BlockFunctions} {size : Nat}

/-- Chained encryption takes blocks to blocks. -/
theorem encryptStep_sized [Functor m] (computes : cipher.Computes functions size) :
    Bulk.Sized size (Bulk.cbcEncryptStep functions cipher.context) := by
  intro iv block _ blockWidth
  have width := computes.lengthEncrypt (Bytes.mask block iv)
    ((Bytes.length_mask block iv).trans blockWidth)
  exact ⟨width, width⟩

/-- Chained decryption takes blocks to blocks. -/
theorem decryptStep_sized [Functor m] (computes : cipher.Computes functions size) :
    Bulk.Sized size (Bulk.cbcDecryptStep functions cipher.context) := by
  intro iv block _ blockWidth
  refine ⟨blockWidth, ?_⟩
  exact (Bytes.length_mask _ _).trans (computes.lengthDecrypt block blockWidth)

/-- Decryption takes a chained block back, and hands on the block that came in. -/
theorem step_undoes {context : Bytes} (invertible : functions.InvertibleUnder context size) :
    Bulk.Undoes size (Bulk.cbcDecryptStep functions context)
      (Bulk.cbcEncryptStep functions context) := by
  intro iv block _ blockWidth
  have opened := invertible (Bytes.mask block iv) ((Bytes.length_mask block iv).trans blockWidth)
  simp only [Bulk.cbcDecryptStep, Bulk.cbcEncryptStep, opened, Bytes.mask_mask]

variable [Monad m] [LawfulMonad m]

/-- Blocks are encrypted as the functions chain them. -/
theorem encryptEach_gives (computes : cipher.Computes functions size) {iv : Bytes}
    (width : iv.length = size) {blocks : List Bytes}
    (whole : ∀ block ∈ blocks, block.length = size) :
    Gives (encryptEach cipher iv blocks)
      (Bulk.chain (Bulk.cbcEncryptStep functions cipher.context) iv blocks) := by
  induction blocks generalizing iv with
  | nil => exact Gives.pure _
  | cons block rest inductionHypothesis =>
    have masked : (Bytes.mask block iv).length = size :=
      (Bytes.length_mask block iv).trans (whole block List.mem_cons_self)
    have outputWidth := computes.lengthEncrypt _ masked
    have later := inductionHypothesis outputWidth fun other member =>
      whole other (List.mem_cons_of_mem block member)
    rw [encryptEach]
    apply Gives.bind (computes.encrypt_gives masked)
    apply Gives.bind (Checked.replace_gives (outputWidth.trans width.symm))
    exact Gives.bind later (Gives.pure _)

/-- Blocks are decrypted as the functions chain them. The previous chaining value is
overwritten. -/
theorem decryptEach_gives (computes : cipher.Computes functions size) {chain : Chain}
    (fits : chain.Fits size) {blocks : List Bytes}
    (whole : ∀ block ∈ blocks, block.length = size) :
    let passed := Bulk.chain (Bulk.cbcDecryptStep functions cipher.context) chain.iv blocks
    ∃ previous, previous.length = size ∧
      Gives (decryptEach cipher chain blocks)
        ({ chain with iv := passed.1, previous }, passed.2) := by
  induction blocks generalizing chain with
  | nil => exact ⟨chain.previous, fits.previous, Gives.pure _⟩
  | cons block rest inductionHypothesis =>
    have blockWidth : block.length = size := whole block List.mem_cons_self
    have nextFits : { chain with iv := block, previous := block }.Fits size :=
      ⟨blockWidth, blockWidth, fits.counter, fits.scratch, fits.carry⟩
    obtain ⟨previous, width, later⟩ := inductionHypothesis nextFits fun other member =>
      whole other (List.mem_cons_of_mem block member)
    refine ⟨previous, width, ?_⟩
    rw [decryptEach]
    apply Gives.bind (Checked.replace_gives (blockWidth.trans fits.previous.symm))
    apply Gives.bind (computes.decrypt_gives blockWidth)
    apply Gives.bind (Checked.replace_gives (blockWidth.trans fits.iv.symm))
    exact Gives.bind later (Gives.pure _)

/-- A buffer is cut into its blocks. -/
theorem wholeBlocks_gives {chain : Chain} (positive : 0 < size) (width : chain.iv.length = size)
    (buffer : Bytes) :
    Gives (Checked.wholeBlocks chain.blockLength buffer : Checked m (List Bytes × Bytes))
      (Bytes.cut size (buffer.length / size) buffer,
        buffer.drop (buffer.length / size * size)) := by
  rw [Chain.blockLength, width]
  exact Checked.wholeBlocks_gives buffer positive

/-- With bulk routines or without, whole blocks are encrypted as the functions chain them. -/
theorem encryptRun_gives (computes : cipher.Computes functions size) (positive : 0 < size)
    {chain : Chain} (width : chain.iv.length = size) {buffer : Bytes}
    (aligned : size ∣ buffer.length) :
    let passed :=
      Bulk.runBlocks size (Bulk.cbcEncryptStep functions cipher.context) chain.iv buffer
    Gives (encryptRun cipher chain buffer) ({ chain with iv := passed.1 }, passed.2) := by
  rw [encryptRun]
  cases available : cipher.bulk with
  | some bulk =>
    have routine := (computes.bulk bulk available).cbcEncrypt chain.iv buffer width aligned
    exact Gives.bind (Gives.lift routine) (Gives.pure _)
  | none =>
    have inside := Nat.div_mul_le_self buffer.length size
    have encrypted := encryptEach_gives computes width
      fun block member => Bytes.length_of_mem_cut inside member
    apply Gives.bind (wholeBlocks_gives positive width buffer)
    exact Gives.bind encrypted (Gives.pure _)

/-- With bulk routines or without, whole blocks are decrypted as the functions chain them. -/
theorem decryptRun_gives (computes : cipher.Computes functions size) {chain : Chain}
    (fits : chain.Fits size) {buffer : Bytes} (aligned : size ∣ buffer.length) :
    let passed :=
      Bulk.runBlocks size (Bulk.cbcDecryptStep functions cipher.context) chain.iv buffer
    ∃ previous, previous.length = size ∧
      Gives (decryptRun cipher chain buffer)
        ({ chain with iv := passed.1, previous }, passed.2) := by
  rw [decryptRun]
  cases available : cipher.bulk with
  | some bulk =>
    have routine := (computes.bulk bulk available).cbcDecrypt chain.iv buffer fits.iv aligned
    exact ⟨chain.previous, fits.previous, Gives.bind (Gives.lift routine) (Gives.pure _)⟩
  | none =>
    have inside := Nat.div_mul_le_self buffer.length size
    obtain ⟨previous, width, decrypted⟩ := decryptEach_gives computes fits
      fun block member => Bytes.length_of_mem_cut inside member
    refine ⟨previous, width, ?_⟩
    apply Gives.bind (wholeBlocks_gives fits.positive fits.iv buffer)
    exact Gives.bind decrypted (Gives.pure _)

/-- A buffer of whole blocks has nothing after its blocks. -/
theorem split_whole_gives {chain : Chain} (positive : 0 < size) (width : chain.iv.length = size)
    {buffer : Bytes} (aligned : size ∣ buffer.length) :
    Gives (Checked.quotient buffer.length chain.blockLength : Checked m Nat)
        (buffer.length / size) ∧
      Gives (Checked.split (buffer.length / size * chain.blockLength) buffer :
        Checked m (Bytes × Bytes)) (buffer, []) := by
  have total := Nat.div_mul_cancel aligned
  have cut := Checked.split_gives (m := m) (Nat.le_of_eq total)
  rw [total, List.take_length, List.drop_length] at cut
  rw [Chain.blockLength, width, total]
  exact ⟨Checked.quotient_gives buffer.length positive, cut⟩

/-- Where stealing changes nothing, encryption is the run over the blocks. -/
theorem encrypt_gives (computes : cipher.Computes functions size) (positive : 0 < size)
    {chain : Chain} (width : chain.iv.length = size) {stealing : Bool} {buffer : Bytes}
    (keeps : steals stealing buffer.length size = false) (aligned : size ∣ buffer.length) :
    let passed :=
      Bulk.runBlocks size (Bulk.cbcEncryptStep functions cipher.context) chain.iv buffer
    Gives (encrypt cipher stealing chain buffer) ({ chain with iv := passed.1 }, passed.2) := by
  intro passed
  obtain ⟨counted, cut⟩ := split_whole_gives (m := m) positive width aligned
  have unchanged : steals stealing buffer.length chain.blockLength = false := by
    rw [Chain.blockLength, width]
    exact keeps
  have given : Gives (encrypt cipher stealing chain buffer)
      ({ chain with iv := passed.1 }, passed.2 ++ []) := by
    rw [encrypt, unchanged]
    apply Gives.bind counted
    apply Gives.bind cut
    exact Gives.bind (encryptRun_gives computes positive width aligned) (Gives.pure _)
  rwa [List.append_nil] at given

/-- Where stealing changes nothing, decryption is the run over the blocks. -/
theorem decrypt_gives (computes : cipher.Computes functions size) {chain : Chain}
    (fits : chain.Fits size) {stealing : Bool} {buffer : Bytes}
    (keeps : steals stealing buffer.length size = false) (aligned : size ∣ buffer.length) :
    let passed :=
      Bulk.runBlocks size (Bulk.cbcDecryptStep functions cipher.context) chain.iv buffer
    ∃ previous, previous.length = size ∧
      Gives (decrypt cipher stealing chain buffer)
        ({ chain with iv := passed.1, previous }, passed.2) := by
  intro passed
  obtain ⟨counted, cut⟩ := split_whole_gives (m := m) fits.positive fits.iv aligned
  obtain ⟨previous, width, decrypted⟩ := decryptRun_gives computes fits aligned
  have unchanged : steals stealing buffer.length chain.blockLength = false := by
    rw [Chain.blockLength, fits.iv]
    exact keeps
  have given : Gives (decrypt cipher stealing chain buffer)
      ({ chain with iv := passed.1, previous }, passed.2 ++ []) := by
    rw [decrypt, unchanged]
    apply Gives.bind counted
    apply Gives.bind cut
    exact Gives.bind decrypted (Gives.pure _)
  rw [List.append_nil] at given
  exact ⟨previous, width, given⟩

/-- What was chained without stealing is decrypted again, from any chain with the same
chaining value, and both sides are left with the same. -/
theorem encrypt_returns (computes : cipher.Computes functions size)
    (invertible : functions.InvertibleUnder cipher.context size) {chain other : Chain}
    (fits : chain.Fits size) (otherFits : other.Fits size) (alike : other.iv = chain.iv)
    {stealing : Bool} {buffer : Bytes} (keeps : steals stealing buffer.length size = false)
    (aligned : size ∣ buffer.length) :
    ∃ iv previous output, iv.length = size ∧ previous.length = size ∧
      output.length = buffer.length ∧
      Gives (encrypt cipher stealing chain buffer) ({ chain with iv }, output) ∧
      Gives (decrypt cipher stealing other output) ({ other with iv, previous }, buffer) := by
  have positive := fits.positive
  have sized := encryptStep_sized computes
  obtain ⟨ivWidth, width⟩ := Bulk.runBlocks_sized sized positive fits.iv aligned
  obtain ⟨previous, previousWidth, back⟩ :=
    decrypt_gives computes otherFits (width.symm ▸ keeps) (width.symm ▸ aligned)
  rw [alike, Bulk.runBlocks_undoes (step_undoes invertible) sized positive fits.iv aligned] at back
  exact ⟨_, previous, _, ivWidth, previousWidth, width,
    encrypt_gives computes positive fits.iv keeps aligned, back⟩

/-- Blocks are chained into the value as the functions chain them. -/
theorem macEach_gives (computes : cipher.Computes functions size) {iv : Bytes}
    (width : iv.length = size) (blocks : List Bytes) :
    Gives (macEach cipher iv blocks)
      (blocks.foldl (Bulk.cbcMacStep functions cipher.context) iv) := by
  induction blocks generalizing iv with
  | nil => exact Gives.pure _
  | cons block rest inductionHypothesis =>
    have masked : (Bytes.mask iv block).length = size := (Bytes.length_mask iv block).trans width
    rw [macEach]
    apply Gives.bind (computes.encrypt_gives masked)
    exact inductionHypothesis (computes.lengthEncrypt _ masked)

/-- With bulk routines or without, a MAC is what the functions chain the whole blocks of a
message into. A message without a whole block changes nothing. -/
theorem mac_gives (computes : cipher.Computes functions size) {chain : Chain}
    (fits : chain.Fits size) (buffer : Bytes) :
    let count := buffer.length / size
    Gives (mac cipher chain buffer)
      (if count * size = 0 then (chain, false)
      else ({ chain with
        iv := (Bytes.cut size count buffer).foldl
          (Bulk.cbcMacStep functions cipher.context) chain.iv }, true)) := by
  intro count
  have inside : count * size ≤ buffer.length := Nat.div_mul_le_self _ _
  have width : (buffer.take (count * size)).length = count * size := List.length_take_of_le inside
  rw [mac, Chain.blockLength, fits.iv]
  apply Gives.bind (Checked.quotient_gives _ fits.positive)
  by_cases short : count * size = 0
  · rw [if_pos short, if_pos short]
    exact Gives.pure _
  · rw [if_neg short, if_neg short]
    apply Gives.bind (Checked.split_gives inside)
    rw [← Bytes.cut_take]
    cases available : cipher.bulk with
    | some bulk =>
      have aligned : size ∣ (buffer.take (count * size)).length := by
        rw [width]
        exact Nat.dvd_mul_left _ _
      have routine := (computes.bulk bulk available).cbcMac chain.iv _ fits.iv aligned
      rw [width, Nat.mul_div_cancel _ fits.positive] at routine
      exact Gives.bind (Gives.lift routine) (Gives.pure _)
    | none => exact Gives.bind (macEach_gives computes fits.iv _) (Gives.pure _)

end CipherEngine.BlockChaining
