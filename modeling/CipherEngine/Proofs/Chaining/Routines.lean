import CipherEngine.Proofs.Chaining.Acceleration
import CipherEngine.Proofs.Chaining.Lengths
import CipherEngine.Standin.Counted
import CipherEngine.Trial

/-!
# Bulk routines that ship

The engine trusts bulk routines with the result of its own loops. For the ciphers that come with
it, and bring routines, the trust is earned: on the whole blocks of any buffer a routine returns
the bytes and the chaining value of the loop that the engine would run with the transforms of
single blocks, and what is behind the last whole block comes back as it was.
-/
namespace CipherEngine

variable {m : Type → Type}

/-! ## Agreement -/

/-- What the engine does where there is no routine: its own loop over blocks, with the
transforms of single blocks. A MAC leaves the buffer alone. -/
def BulkJob.blockwise [Monad m] (routine : BulkJob) (cipher : KeyedCipher m) (chain : Chain)
    (buffer : Bytes) : Checked m (Chain × Bytes) :=
  match routine with
  | .cbcEncrypt => BlockChaining.encryptRun cipher.withoutBulk chain buffer
  | .cbcDecrypt => BlockChaining.decryptRun cipher.withoutBulk chain buffer
  | .cfbEncrypt => CipherFeedback.transform cipher.withoutBulk .encrypt chain buffer
  | .cfbDecrypt => CipherFeedback.transform cipher.withoutBulk .decrypt chain buffer
  | .cbcMac => do
    let (chain, _) ← BlockChaining.mac cipher.withoutBulk chain buffer
    pure (chain, buffer)

/-- On a buffer, a routine returns the chaining value and the whole blocks of the engine's loop,
run from any chain with the same chaining value that carries nothing. The rest of the buffer
stays, and without a whole block so does the chaining value. -/
def BulkRoutines.AgreesOn [Monad m] (bulk : BulkRoutines m) (block : BlockCipher m) (size : Nat)
    (routine : BulkJob) (context iv buffer : Bytes) : Prop :=
  let whole := buffer.length / size * size
  ∃ last output, output.length = whole ∧
    Yields (bulk.run routine context iv buffer) (last, output ++ buffer.drop whole) ∧
    (∀ chain : Chain, chain.Fits size → chain.iv = iv → chain.carry = 0 →
      ∃ after, Gives (routine.blockwise ⟨block, some bulk, context⟩ chain (buffer.take whole))
        (after, output) ∧ after.iv = last ∧ after.carry = 0) ∧
    (whole = 0 → last = iv)

/-- The primitive has transforms of single blocks and bulk routines, and every routine agrees
with the engine's loop, under every context of the given size, from every chaining value of one
block, on every buffer. -/
def Primitive.RoutinesAgree [Monad m] (primitive : Primitive m) (contextSize size : Nat) : Prop :=
  ∃ block bulk, primitive.block = some block ∧ primitive.bulk = some bulk ∧
    ∀ routine context iv buffer, context.length = contextSize → iv.length = size →
      bulk.AgreesOn block size routine context iv buffer

/-! ## Routines of functions on blocks -/

section

variable (functions : BlockFunctions) (size : Nat) (context : Bytes)

/-- What a routine makes of a chaining value and whole blocks. -/
def BlockFunctions.pass (routine : BulkJob) (iv blocks : Bytes) : Bytes × Bytes :=
  match routine with
  | .cbcEncrypt => Bulk.runBlocks size (Bulk.cbcEncryptStep functions context) iv blocks
  | .cbcDecrypt => Bulk.runBlocks size (Bulk.cbcDecryptStep functions context) iv blocks
  | .cfbEncrypt => Bulk.runBlocks size (Bulk.cfbStep functions context .encrypt) iv blocks
  | .cfbDecrypt => Bulk.runBlocks size (Bulk.cfbStep functions context .decrypt) iv blocks
  | .cbcMac =>
    ((Bytes.cut size (blocks.length / size) blocks).foldl (Bulk.cbcMacStep functions context) iv,
      blocks)

end

/-- Whole blocks are run by themselves, and the rest of the buffer is put behind them. -/
theorem Bulk.runBlocks_take {size : Nat} (step : (iv block : Bytes) → Bytes × Bytes)
    (positive : 0 < size) (iv buffer : Bytes) :
    let whole := buffer.length / size * size
    let passed := runBlocks size step iv (buffer.take whole)
    runBlocks size step iv buffer = (passed.1, passed.2 ++ buffer.drop whole) := by
  intro whole passed
  have width : (buffer.take whole).length = whole :=
    List.length_take_of_le (Nat.div_mul_le_self _ _)
  simp only [passed]
  rw [runBlocks_whole step iv positive width, Bytes.cut_take]
  rfl

namespace BlockFunctions

variable {functions : BlockFunctions} {size : Nat} {context : Bytes}

/-- Without a block nothing is made. -/
theorem pass_nil (routine : BulkJob) (iv : Bytes) :
    functions.pass size context routine iv [] = (iv, []) := by
  have none (step : (iv block : Bytes) → Bytes × Bytes) :
      Bulk.runBlocks size step iv [] = (iv, []) := by
    simp [Bulk.runBlocks, Bytes.cut, Bulk.chain]
  cases routine with
  | cbcEncrypt | cbcDecrypt | cfbEncrypt | cfbDecrypt => exact none _
  | cbcMac => simp [pass, Bytes.cut]

variable [Monad m] [LawfulMonad m]

/-- The routines of the functions work on the whole blocks and leave the rest. -/
theorem run_toBulk (positive : 0 < size) (routine : BulkJob) (iv buffer : Bytes) :
    let whole := buffer.length / size * size
    let passed := functions.pass size context routine iv (buffer.take whole)
    (functions.toBulk size : BulkRoutines m).run routine context iv buffer =
      pure (passed.1, passed.2 ++ buffer.drop whole) := by
  intro whole passed
  have width : (buffer.take whole).length = whole :=
    List.length_take_of_le (Nat.div_mul_le_self _ _)
  cases routine with
  | cbcEncrypt | cbcDecrypt | cfbEncrypt | cfbDecrypt =>
    exact congrArg pure (Bulk.runBlocks_take _ positive iv buffer)
  | cbcMac =>
    simp only [passed, pass, BulkRoutines.run, toBulk, pure_bind, width,
      Nat.mul_div_cancel _ positive, whole, Bytes.cut_take, List.take_append_drop]

end BlockFunctions

namespace KeyedCipher.Computes

variable {cipher : KeyedCipher m} {functions : BlockFunctions} {size : Nat}

/-- Whole blocks are made into as many bytes. -/
theorem length_pass [Functor m] (computes : cipher.Computes functions size) (positive : 0 < size)
    (routine : BulkJob) {iv blocks : Bytes} (width : iv.length = size)
    (aligned : size ∣ blocks.length) :
    (functions.pass size cipher.context routine iv blocks).2.length = blocks.length := by
  cases routine with
  | cbcEncrypt =>
    exact (Bulk.runBlocks_sized (BlockChaining.encryptStep_sized computes) positive width aligned).2
  | cbcDecrypt =>
    exact (Bulk.runBlocks_sized (BlockChaining.decryptStep_sized computes) positive width aligned).2
  | cfbEncrypt | cfbDecrypt =>
    exact (Bulk.runBlocks_sized (CipherFeedback.feedStep_sized computes _) positive width aligned).2
  | cbcMac => rfl

variable [Monad m] [LawfulMonad m]

/-- From a block boundary, feedback over whole blocks ends at one, with the chained blocks. -/
theorem feedback_blockwise (computes : cipher.Computes functions size) (direction : Direction)
    {chain : Chain} (fits : chain.Fits size) (boundary : chain.carry = 0) {blocks : Bytes}
    (aligned : size ∣ blocks.length) :
    let passed := Bulk.runBlocks size (Bulk.cfbStep functions cipher.context direction)
      chain.iv blocks
    ∃ after, Gives (CipherFeedback.transform cipher direction chain blocks) (after, passed.2) ∧
      after.iv = passed.1 ∧ after.carry = 0 := by
  intro passed
  have total := Nat.div_mul_cancel aligned
  obtain ⟨sameChain, sameBytes⟩ := CipherFeedback.pass_blocks functions cipher.context direction
    fits.positive computes.lengthEncrypt chain fits.iv boundary
    fun block member => Bytes.length_of_mem_cut (Nat.le_of_eq total) member
  rw [Bytes.flatten_cut, total, List.take_length] at sameChain sameBytes
  obtain ⟨after, given, _, settled⟩ := CipherFeedback.transform_gives computes direction fits blocks
  have same := settled.trans sameChain
  have whole : passed = _ := Bulk.runBlocks_whole _ chain.iv fits.positive total.symm
  rw [whole]
  refine ⟨after, ?_, ?_, ?_⟩
  · rwa [sameBytes] at given
  · have values := congrArg Chain.iv same
    rw [Keystream.iv_settle, Keystream.iv_settle] at values
    exact values
  · have carries := congrArg Chain.carry same
    rw [Keystream.carry_settle, Keystream.carry_settle] at carries
    exact carries.trans boundary

/-- The engine's loops make of whole blocks what the functions say. -/
theorem blockwise_gives (computes : cipher.Computes functions size) (routine : BulkJob)
    {chain : Chain} (fits : chain.Fits size) (boundary : chain.carry = 0) {blocks : Bytes}
    (aligned : size ∣ blocks.length) :
    let passed := functions.pass size cipher.context routine chain.iv blocks
    ∃ after, Gives (routine.blockwise cipher chain blocks) (after, passed.2) ∧
      after.iv = passed.1 ∧ after.carry = 0 := by
  have plain := computes.withoutBulk
  cases routine with
  | cbcEncrypt =>
    exact ⟨_, BlockChaining.encryptRun_gives plain fits.positive fits.iv aligned, rfl, boundary⟩
  | cbcDecrypt =>
    obtain ⟨previous, _, given⟩ := BlockChaining.decryptRun_gives plain fits aligned
    exact ⟨_, given, rfl, boundary⟩
  | cfbEncrypt => exact plain.feedback_blockwise .encrypt fits boundary aligned
  | cfbDecrypt => exact plain.feedback_blockwise .decrypt fits boundary aligned
  | cbcMac =>
    have total := Nat.div_mul_cancel aligned
    have chained := BlockChaining.mac_gives plain fits blocks
    dsimp only at chained
    by_cases none : blocks.length / size * size = 0
    · obtain rfl : blocks = [] := List.eq_nil_of_length_eq_zero (total.symm.trans none)
      rw [if_pos none] at chained
      refine ⟨chain, Gives.bind chained (Gives.pure _), ?_, boundary⟩
      rw [BlockFunctions.pass_nil]
    · rw [if_neg none] at chained
      exact ⟨_, Gives.bind chained (Gives.pure _), rfl, boundary⟩

end KeyedCipher.Computes

variable [Monad m] [LawfulMonad m] {functions : BlockFunctions} {size : Nat} {context : Bytes}

/-- Routines that return what those of the functions return agree with the loop over the
transforms of the same functions. -/
theorem BulkRoutines.agreesOn_of_run {bulk : BulkRoutines m} {block : BlockCipher m}
    (computes : KeyedCipher.Computes ⟨block, none, context⟩ functions size) (positive : 0 < size)
    {routine : BulkJob} {iv buffer : Bytes} (width : iv.length = size)
    (returned : ∀ value, (functions.toBulk size : BulkRoutines m).run routine context iv buffer =
      pure value → Yields (bulk.run routine context iv buffer) value) :
    bulk.AgreesOn block size routine context iv buffer := by
  unfold BulkRoutines.AgreesOn
  intro whole
  have inside : whole ≤ buffer.length := Nat.div_mul_le_self _ _
  have taken : (buffer.take whole).length = whole := List.length_take_of_le inside
  have aligned : size ∣ (buffer.take whole).length := by
    rw [taken]
    exact Nat.dvd_mul_left _ _
  refine ⟨_, _, ?_, returned _ (BlockFunctions.run_toBulk positive routine iv buffer), ?_, ?_⟩
  · exact (computes.length_pass positive routine width aligned).trans taken
  · rintro chain fits rfl boundary
    exact computes.blockwise_gives routine fits boundary aligned
  · intro none
    have nothing : buffer.take whole = [] := by rw [none, List.take_zero]
    rw [nothing, BlockFunctions.pass_nil]

/-! ## The ciphers that bring routines -/

namespace Standin.Counted

/-- Counting a block does not change what is returned. -/
theorem countBlock_yields {α : Type} (number : Nat) {computation : Bench α} {value : α}
    (yielded : Yields computation value) : Yields (countBlock number computation) value :=
  Ensures.bind (Ensures.always _ fun _ => trivial) fun _ _ => yielded

/-- Nor does counting a bulk call. -/
theorem countBulk_yields {α : Type} (number : Nat) {computation : Bench α} {value : α}
    (yielded : Yields computation value) : Yields (countBulk number computation) value :=
  Ensures.bind (Ensures.always _ fun _ => trivial) fun _ _ => yielded

/-- The counting cipher flips single blocks. -/
theorem computes_block (number : Nat) (context : Bytes) :
    KeyedCipher.Computes ⟨block number, none, context⟩ Flip.blockFunctions Flip.blockLength :=
  ⟨fun _ _ => countBlock_yields number (Yields.pure _),
    fun _ _ => countBlock_yields number (Yields.pure _),
    fun _ width => (List.length_map _).trans width, fun _ width => (List.length_map _).trans width,
    fun _ given => nomatch given⟩

/-- A routine of the counting cipher is that of the flipping cipher, counted once. -/
theorem run_bulk (number : Nat) (routine : BulkJob) (context iv buffer : Bytes) :
    (bulk number).run routine context iv buffer =
      countBulk number ((Flip.blockFunctions.toBulk Flip.blockLength).run routine context iv
        buffer) := by
  cases routine <;> rfl

end Standin.Counted

/-- The routines of AES, for every variant, and those of the counting cipher agree with the
engine's loops on every buffer.

Proof: a loop and a routine are both the chaining of the blocks with one step, the loop by
induction on the blocks. In cipher feedback the loop takes the last whole block apart from those
before it, and is first seen to go byte by byte. -/
theorem shipped_routines_agree :
    (∀ variant, (Aes.primitive variant : Primitive m).RoutinesAgree variant.contextSize 16) ∧
    ∀ number policy contextSize,
      (Standin.Counted.primitive number policy true).RoutinesAgree contextSize 16 := by
  constructor
  · intro variant
    refine ⟨_, _, rfl, rfl, fun routine context iv buffer contextWidth width => ?_⟩
    have declared : context.length = (Aes.algorithm variant : Algorithm m).contextSize.toNat := by
      cases variant <;> exact contextWidth
    have computes := (Aes.algorithm_computes variant _ rfl context declared).withoutBulk
    refine BulkRoutines.agreesOn_of_run computes (show 0 < 16 by decide) width
      fun value returned => ?_
    exact returned ▸ Yields.pure value
  · intro number policy contextSize
    refine ⟨_, _, rfl, rfl, fun routine context iv buffer _ width => ?_⟩
    refine BulkRoutines.agreesOn_of_run (Standin.Counted.computes_block number context) (by decide)
      width fun value returned => ?_
    rw [Standin.Counted.run_bulk]
    apply Standin.Counted.countBulk_yields
    rw [returned]
    exact Yields.pure value

/-- A routine that opens one block and a byte behind it: the ciphertext is the next chaining
value, the byte is left, and the call is counted. -/
theorem shipped_routines_agree_specimen :
    (Aes.primitive .aes128 : Primitive Id).RoutinesAgree 352 16 ∧
      (Standin.Counted.primitive 0 .never true).RoutinesAgree 16 16 ∧
      (Standin.Counted.bulk 0).run .cbcDecrypt [] (Bytes.zeros 16) (Bytes.zeros 17) [{}] =
        ((Bytes.zeros 16, List.replicate 16 0xFF ++ [0]), [{ bulks := 1 }]) := by
  obtain ⟨aes, counted⟩ := shipped_routines_agree (m := Id)
  exact ⟨aes .aes128, counted 0 .never 16, rfl⟩

end CipherEngine
