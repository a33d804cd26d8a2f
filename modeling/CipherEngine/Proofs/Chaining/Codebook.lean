import CipherEngine.Chaining.Codebook
import CipherEngine.Proofs.Chaining.BlockSteps
import CipherEngine.Proofs.Chaining.Contract

/-!
# Electronic codebook, block by block

The whole blocks of a buffer are transformed as the block functions do it, and
what was encrypted is decrypted again.
-/
namespace CipherEngine.Codebook

variable {m : Type → Type} {cipher : KeyedCipher m} {functions : BlockFunctions} {size : Nat}

/-- One block in the given direction, as the functions compute it. -/
def apply (functions : BlockFunctions) (context : Bytes) : Direction → Bytes → Bytes
  | .encrypt => functions.encrypt context
  | .decrypt => functions.decrypt context

/-- The codebook as a step over blocks, which hands nothing on. -/
def step (functions : BlockFunctions) (context : Bytes) (direction : Direction)
    (iv block : Bytes) : Bytes × Bytes :=
  (iv, apply functions context direction block)

/-- The codebook takes blocks to blocks. -/
theorem step_sized [Functor m] (computes : cipher.Computes functions size)
    (direction : Direction) : Bulk.Sized size (step functions cipher.context direction) := by
  intro iv block width blockWidth
  refine ⟨width, ?_⟩
  cases direction with
  | encrypt => exact computes.lengthEncrypt block blockWidth
  | decrypt => exact computes.lengthDecrypt block blockWidth

/-- The codebook read backwards. -/
theorem step_undoes (context : Bytes) (invertible : functions.InvertibleUnder context size) :
    Bulk.Undoes size (step functions context .decrypt) (step functions context .encrypt) :=
  fun iv block _ blockWidth => congrArg (iv, ·) (invertible block blockWidth)

variable [Monad m] [LawfulMonad m]

/-- Each block is transformed as the functions do it. -/
theorem each_gives (computes : cipher.Computes functions size) (direction : Direction)
    (iv : Bytes) {blocks : List Bytes} (whole : ∀ block ∈ blocks, block.length = size) :
    Gives (each cipher direction blocks)
      (Bulk.chain (step functions cipher.context direction) iv blocks).2 := by
  induction blocks with
  | nil => exact Gives.pure _
  | cons block rest inductionHypothesis =>
    have width : block.length = size := whole block List.mem_cons_self
    have later := inductionHypothesis fun other member =>
      whole other (List.mem_cons_of_mem block member)
    have first : Gives (cipher.run direction block)
        (apply functions cipher.context direction block) := by
      cases direction with
      | encrypt => exact computes.encrypt_gives width
      | decrypt => exact computes.decrypt_gives width
    rw [each]
    exact Gives.bind first (Gives.bind later (Gives.pure _))

/-- The whole blocks of a buffer are transformed as the functions do it. -/
theorem transform_gives (computes : cipher.Computes functions size) (direction : Direction)
    {chain : Chain} (fits : chain.Fits size) (buffer : Bytes) :
    Gives (transform cipher direction chain buffer)
      (Bulk.runBlocks size (step functions cipher.context direction) chain.iv buffer).2 := by
  have positive := fits.positive
  have inside := Nat.div_mul_le_self buffer.length size
  have blocks : Gives (Checked.wholeBlocks chain.blockLength buffer : Checked m _)
      (Bytes.cut size (buffer.length / size) buffer,
        buffer.drop (buffer.length / size * size)) := by
    rw [Chain.blockLength, fits.iv]
    exact Checked.wholeBlocks_gives buffer positive
  have transformed := each_gives computes direction chain.iv
    fun block member => Bytes.length_of_mem_cut inside member
  rw [transform]
  apply Gives.bind blocks
  exact Gives.bind transformed (Gives.pure _)

/-- What was encrypted in a codebook is decrypted again, from any chain with the same
chaining value. -/
theorem transform_returns (computes : cipher.Computes functions size)
    (invertible : functions.InvertibleUnder cipher.context size) {chain other : Chain}
    (fits : chain.Fits size) (otherFits : other.Fits size) (alike : other.iv = chain.iv)
    {buffer : Bytes} (aligned : size ∣ buffer.length) :
    ∃ output, output.length = buffer.length ∧
      Gives (transform cipher .encrypt chain buffer) output ∧
      Gives (transform cipher .decrypt other output) buffer := by
  have positive := fits.positive
  have sized := step_sized computes .encrypt
  obtain ⟨_, width⟩ := Bulk.runBlocks_sized sized positive fits.iv aligned
  have back := transform_gives computes .decrypt otherFits
    (Bulk.runBlocks size (step functions cipher.context .encrypt) chain.iv buffer).2
  rw [alike, Bulk.runBlocks_undoes (step_undoes cipher.context invertible) sized positive fits.iv
    aligned] at back
  exact ⟨_, width, transform_gives computes .encrypt fits buffer, back⟩

end CipherEngine.Codebook
