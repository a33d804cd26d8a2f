import CipherEngine.Aes.Cipher
import CipherEngine.Chaining.Codebook
import CipherEngine.Proofs.Chaining.CipherFeedback
import CipherEngine.Proofs.Chaining.Counter
import CipherEngine.Proofs.Chaining.OutputFeedback
import CipherEngine.Proofs.Chaining.Stealing

/-!
# No mode comes out of its domain

The modes cut buffers, subtract lengths and divide by block lengths, and each such step
has a precondition. Here is that all of them are met, for a primitive of which nothing
is known but that it keeps lengths: it may return what it likes, another time
something else. On a chain that fits every transform goes through, returns as many
bytes as it was given, and leaves a chain that fits.
-/
namespace CipherEngine

variable {m : Type → Type}

/-- On whole blocks of `size` bytes, the bulk routines keep the length of the buffer and of the
chaining value. -/
structure BulkRoutines.KeepsLengths [Functor m] (bulk : BulkRoutines m) (context : Bytes)
    (size : Nat) : Prop where
  cbcEncrypt : ∀ iv blocks, iv.length = size → size ∣ blocks.length →
    Ensures (bulk.cbcEncrypt context iv blocks) fun result =>
      result.1.length = size ∧ result.2.length = blocks.length
  cbcDecrypt : ∀ iv blocks, iv.length = size → size ∣ blocks.length →
    Ensures (bulk.cbcDecrypt context iv blocks) fun result =>
      result.1.length = size ∧ result.2.length = blocks.length
  cfbEncrypt : ∀ iv blocks, iv.length = size → size ∣ blocks.length →
    Ensures (bulk.cfbEncrypt context iv blocks) fun result =>
      result.1.length = size ∧ result.2.length = blocks.length
  cfbDecrypt : ∀ iv blocks, iv.length = size → size ∣ blocks.length →
    Ensures (bulk.cfbDecrypt context iv blocks) fun result =>
      result.1.length = size ∧ result.2.length = blocks.length
  cbcMac : ∀ iv blocks, iv.length = size → size ∣ blocks.length →
    Ensures (bulk.cbcMac context iv blocks) fun last => last.length = size

/-- The keyed cipher keeps the length of a block of `size` bytes. -/
structure KeyedCipher.KeepsLengths [Functor m] (cipher : KeyedCipher m) (size : Nat) : Prop where
  encrypts : ∀ block, block.length = size →
    Ensures (cipher.block.encrypt cipher.context block) fun output => output.length = size
  decrypts : ∀ block, block.length = size →
    Ensures (cipher.block.decrypt cipher.context block) fun output => output.length = size
  bulk : ∀ bulk, cipher.bulk = some bulk → bulk.KeepsLengths cipher.context size

/-- The primitive, under every context of the declared size, keeps the length of blocks of the
declared length, and of every buffer that it streams. -/
structure Algorithm.KeepsLengths [Functor m] (algorithm : Algorithm m) : Prop where
  block : ∀ block, algorithm.primitive.block = some block →
    ∀ context, context.length = algorithm.contextSize.toNat →
      KeyedCipher.KeepsLengths ⟨block, algorithm.primitive.bulk, context⟩
        algorithm.blockLength.toNat
  encryptStream : ∀ stream, algorithm.primitive.stream = some stream →
    ∀ context buffer, context.length = algorithm.contextSize.toNat →
      Ensures (stream.encrypt context buffer) fun result => result.2.length = buffer.length
  decryptStream : ∀ stream, algorithm.primitive.stream = some stream →
    ∀ context buffer, context.length = algorithm.contextSize.toNat →
      Ensures (stream.decrypt context buffer) fun result => result.2.length = buffer.length

/-- What a transform of a chain leaves of `length` bytes: as many bytes, and a chain that fits. -/
structure Chain.Returns (size length : Nat) (result : Chain × Bytes) : Prop where
  fits : result.1.Fits size
  length : result.2.length = length

variable [Monad m] [LawfulMonad m] {cipher : KeyedCipher m} {size : Nat} {chain : Chain}

namespace KeyedCipher.KeepsLengths

/-- A block is encrypted to a block. -/
theorem encrypt_completes (keeps : cipher.KeepsLengths size) {block : Bytes}
    (width : block.length = size) :
    Completes (cipher.encrypt block) fun output => output.length = size :=
  Completes.lift (keeps.encrypts block width)

/-- And it is decrypted to one. -/
theorem decrypt_completes (keeps : cipher.KeepsLengths size) {block : Bytes}
    (width : block.length = size) :
    Completes (cipher.decrypt block) fun output => output.length = size :=
  Completes.lift (keeps.decrypts block width)

/-- The chaining value is kept and encrypted in a chain that fits. -/
theorem advance_completes (keeps : cipher.KeepsLengths size) (fits : chain.Fits size) :
    Completes (chain.advance cipher) fun next => next.Fits size ∧ next.carry = chain.carry := by
  rw [Chain.advance]
  apply Completes.after fits.keepPrevious_gives
  apply Completes.bind (keeps.encrypt_completes fits.iv)
  intro iv width
  exact Completes.pure ⟨⟨width, fits.iv, fits.counter, fits.scratch, fits.carry⟩, rfl⟩

end KeyedCipher.KeepsLengths

/-- A new chaining value of the right length fits. -/
theorem Chain.Fits.withIv (fits : chain.Fits size) {iv : Bytes} (width : iv.length = size) :
    Chain.Fits size { chain with iv } :=
  ⟨width, fits.previous, fits.counter, fits.scratch, fits.carry⟩

/-- In a chain that fits, a block is as long as it should be. -/
theorem Chain.Fits.blockLength (fits : chain.Fits size) : chain.blockLength = size := fits.iv

/-- What stands before a block in a list of blocks is a block. -/
theorem Bytes.length_flatten_cons {block output : Bytes} {rest outputs : List Bytes}
    (first : output.length = block.length) (others : outputs.flatten.length = rest.flatten.length) :
    (output :: outputs).flatten.length = (block :: rest).flatten.length := by
  rw [List.flatten_cons, List.length_append, List.flatten_cons, List.length_append, first, others]

/-- Blocks of a buffer that come out with their lengths, and what followed them. -/
theorem Bytes.length_blocks {outputs : List Bytes} {count : Nat} {buffer : Bytes}
    (total : outputs.flatten.length = (Bytes.cut size count buffer).flatten.length) :
    (outputs.flatten ++ buffer.drop (count * size)).length = buffer.length := by
  rw [List.length_append, total, Bytes.flatten_cut, List.length_take, List.length_drop]
  omega

namespace Codebook

/-- Every block comes out with its length. -/
theorem each_completes (keeps : cipher.KeepsLengths size) (direction : Direction)
    {blocks : List Bytes} (whole : ∀ block ∈ blocks, block.length = size) :
    Completes (each cipher direction blocks) fun outputs =>
      outputs.flatten.length = blocks.flatten.length := by
  induction blocks with
  | nil => exact Completes.pure rfl
  | cons block rest inductionHypothesis =>
    obtain ⟨width, others⟩ := List.forall_mem_cons.mp whole
    have first : Completes (cipher.run direction block) fun output => output.length = size := by
      cases direction with
      | encrypt => exact keeps.encrypt_completes width
      | decrypt => exact keeps.decrypt_completes width
    rw [each]
    apply Completes.bind first
    intro output outputWidth
    apply Completes.bind (inductionHypothesis others)
    intro outputs total
    exact Completes.pure (Bytes.length_flatten_cons (outputWidth.trans width.symm) total)

/-- A buffer comes out with its length. -/
theorem transform_completes (keeps : cipher.KeepsLengths size) (direction : Direction)
    (fits : chain.Fits size) (buffer : Bytes) :
    Completes (transform cipher direction chain buffer) fun output =>
      output.length = buffer.length := by
  have inside := Nat.div_mul_le_self buffer.length size
  rw [transform, fits.blockLength]
  apply Completes.after (Checked.wholeBlocks_gives buffer fits.positive)
  apply Completes.bind
    (each_completes keeps direction fun block member => Bytes.length_of_mem_cut inside member)
  intro outputs total
  exact Completes.pure (Bytes.length_blocks total)

end Codebook

namespace BlockChaining

/-- Block by block, every block comes out with its length, and the last is a block. -/
theorem encryptEach_completes (keeps : cipher.KeepsLengths size) {iv : Bytes}
    (width : iv.length = size) {blocks : List Bytes}
    (whole : ∀ block ∈ blocks, block.length = size) :
    Completes (encryptEach cipher iv blocks) fun result =>
      result.1.length = size ∧ result.2.flatten.length = blocks.flatten.length := by
  induction blocks generalizing iv with
  | nil => exact Completes.pure ⟨width, rfl⟩
  | cons block rest inductionHypothesis =>
    obtain ⟨blockWidth, others⟩ := List.forall_mem_cons.mp whole
    rw [encryptEach]
    apply Completes.bind (keeps.encrypt_completes ((Bytes.length_mask block iv).trans blockWidth))
    intro sealed sealedWidth
    apply Completes.after (Checked.replace_gives (sealedWidth.trans width.symm))
    apply Completes.bind (inductionHypothesis sealedWidth others)
    intro result ends
    exact Completes.pure
      ⟨ends.1, Bytes.length_flatten_cons (sealedWidth.trans blockWidth.symm) ends.2⟩

/-- Whole blocks are decrypted one by one, to a state that fits and as many bytes. -/
theorem decryptEach_completes (keeps : cipher.KeepsLengths size) (fits : chain.Fits size)
    {blocks : List Bytes} (whole : ∀ block ∈ blocks, block.length = size) :
    Completes (decryptEach cipher chain blocks) fun result =>
      result.1.Fits size ∧ result.2.flatten.length = blocks.flatten.length := by
  induction blocks generalizing chain with
  | nil => exact Completes.pure ⟨fits, rfl⟩
  | cons block rest inductionHypothesis =>
    obtain ⟨blockWidth, others⟩ := List.forall_mem_cons.mp whole
    have next : Chain.Fits size { chain with iv := block, previous := block } :=
      ⟨blockWidth, blockWidth, fits.counter, fits.scratch, fits.carry⟩
    rw [decryptEach]
    apply Completes.after (Checked.replace_gives (blockWidth.trans fits.previous.symm))
    apply Completes.bind (keeps.decrypt_completes blockWidth)
    intro opened openedWidth
    apply Completes.after (Checked.replace_gives (blockWidth.trans fits.iv.symm))
    apply Completes.bind (inductionHypothesis next others)
    intro result ends
    have outputWidth : (Bytes.mask opened chain.iv).length = block.length := by
      rw [Bytes.length_mask, openedWidth, blockWidth]
    exact Completes.pure ⟨ends.1, Bytes.length_flatten_cons outputWidth ends.2⟩

/-- A buffer of whole blocks is encrypted, in bulk or block by block. -/
theorem encryptRun_completes (keeps : cipher.KeepsLengths size) (fits : chain.Fits size)
    {buffer : Bytes} (aligned : size ∣ buffer.length) :
    Completes (encryptRun cipher chain buffer) (Chain.Returns size buffer.length) := by
  have inside := Nat.div_mul_le_self buffer.length size
  rw [encryptRun]
  cases available : cipher.bulk with
  | some bulk =>
    apply Completes.bind
      (Completes.lift ((keeps.bulk bulk available).cbcEncrypt chain.iv buffer fits.iv aligned))
    intro result ends
    exact Completes.pure ⟨fits.withIv ends.1, ends.2⟩
  | none =>
    simp only [fits.blockLength]
    apply Completes.after (Checked.wholeBlocks_gives buffer fits.positive)
    apply Completes.bind (encryptEach_completes keeps fits.iv
      fun block member => Bytes.length_of_mem_cut inside member)
    intro result ends
    exact Completes.pure ⟨fits.withIv ends.1, Bytes.length_blocks ends.2⟩

/-- A buffer of whole blocks is decrypted in one go, by the bulk routine if there is one. -/
theorem decryptRun_completes (keeps : cipher.KeepsLengths size) (fits : chain.Fits size)
    {buffer : Bytes} (aligned : size ∣ buffer.length) :
    Completes (decryptRun cipher chain buffer) (Chain.Returns size buffer.length) := by
  have inside := Nat.div_mul_le_self buffer.length size
  rw [decryptRun]
  cases available : cipher.bulk with
  | some bulk =>
    apply Completes.bind
      (Completes.lift ((keeps.bulk bulk available).cbcDecrypt chain.iv buffer fits.iv aligned))
    intro result ends
    exact Completes.pure ⟨fits.withIv ends.1, ends.2⟩
  | none =>
    simp only [fits.blockLength]
    apply Completes.after (Checked.wholeBlocks_gives buffer fits.positive)
    apply Completes.bind (decryptEach_completes keeps fits
      fun block member => Bytes.length_of_mem_cut inside member)
    intro result ends
    exact Completes.pure ⟨ends.1, Bytes.length_blocks ends.2⟩

/-- The swap of the tail with the last block before it. -/
theorem stealTail_completes (keeps : cipher.KeepsLengths size) (fits : chain.Fits size)
    {sealed tail : Bytes} (width : sealed.length = size) (short : tail.length ≤ size) :
    Completes (stealTail cipher chain sealed tail) (Chain.Returns size (size + tail.length)) := by
  have ivWidth := fits.iv
  have padded : (Bytes.mask tail chain.iv ++ chain.iv.drop tail.length).length = size := by
    rw [List.length_append, Bytes.length_mask, List.length_drop]
    omega
  rw [stealTail]
  apply Completes.after (Checked.split_gives (width.symm ▸ short))
  apply Completes.after (Checked.split_gives (ivWidth.symm ▸ short))
  apply Completes.after (Checked.replace_gives (padded.trans width.symm))
  apply Completes.bind (keeps.encrypt_completes padded)
  intro last lastWidth
  apply Completes.after (Checked.replace_gives (lastWidth.trans ivWidth.symm))
  refine Completes.pure ⟨fits.withIv lastWidth, ?_⟩
  rw [List.length_append, lastWidth, List.length_take, width, Nat.min_eq_left short]

/-- The swap undone. -/
theorem returnTail_completes (keeps : cipher.KeepsLengths size) (fits : chain.Fits size)
    {swapped tail : Bytes} (width : swapped.length = size) (short : tail.length ≤ size) :
    Completes (returnTail cipher chain swapped tail) (Chain.Returns size (size + tail.length)) := by
  rw [returnTail]
  apply Completes.after fits.keepPrevious_gives
  apply Completes.bind (keeps.decrypt_completes width)
  intro opened openedWidth
  have completed : (tail ++ opened.drop tail.length).length = size := by
    rw [List.length_append, List.length_drop, openedWidth, Nat.add_sub_cancel' short]
  apply Completes.after (Checked.split_gives (openedWidth.symm ▸ short))
  apply Completes.after (Checked.replace_gives (completed.trans fits.iv.symm))
  apply Completes.bind (keeps.decrypt_completes completed)
  intro plain plainWidth
  refine Completes.pure ⟨⟨completed, fits.iv, fits.counter, fits.scratch, fits.carry⟩, ?_⟩
  rw [List.length_append, Bytes.length_mask, Bytes.length_mask, plainWidth, List.length_take,
    openedWidth, Nat.min_eq_left short]

/-- The whole blocks of a buffer, and what follows them. -/
theorem split_blocks_gives (fits : chain.Fits size) (buffer : Bytes) :
    Gives (Checked.quotient buffer.length size : Checked m Nat) (buffer.length / size) ∧
      Gives (Checked.split (buffer.length / size * size) buffer : Checked m (Bytes × Bytes))
        (buffer.take (buffer.length / size * size), buffer.drop (buffer.length / size * size)) ∧
      size ∣ (buffer.take (buffer.length / size * size)).length := by
  have inside := Nat.div_mul_le_self buffer.length size
  refine ⟨Checked.quotient_gives _ fits.positive, Checked.split_gives inside, ?_⟩
  rw [List.length_take_of_le inside]
  exact Nat.dvd_mul_left _ _

/-- The whole blocks of a buffer run through, and what follows them is left as it is. -/
theorem wholeBlocks_completes {run : Bytes → Checked m (Chain × Bytes)} (fits : chain.Fits size)
    (buffer : Bytes)
    (runs : ∀ blocks : Bytes, size ∣ blocks.length →
      Completes (run blocks) (Chain.Returns size blocks.length)) :
    Completes (do
        let count ← Checked.quotient buffer.length size
        let (head, tail) ← Checked.split (count * size) buffer
        let (next, output) ← run head
        pure (next, output ++ tail))
      (Chain.Returns size buffer.length) := by
  obtain ⟨counted, cut, aligned⟩ := split_blocks_gives (m := m) fits buffer
  apply Completes.after counted
  apply Completes.after cut
  apply Completes.bind (runs _ aligned)
  rintro ⟨next, output⟩ ⟨nextFits, width⟩
  refine Completes.pure ⟨nextFits, ?_⟩
  simp only at width ⊢
  rw [List.length_append, width, ← List.length_append, List.take_append_drop]

/-- A message is encrypted, with stealing or without, aligned or not. -/
theorem encrypt_completes (keeps : cipher.KeepsLengths size) (stealing : Bool)
    (fits : chain.Fits size) (buffer : Bytes) :
    Completes (encrypt cipher stealing chain buffer) (Chain.Returns size buffer.length) := by
  rw [encrypt]
  simp only [fits.blockLength]
  by_cases stolen : steals stealing buffer.length size = true
  · rw [if_pos stolen]
    rw [steals, Bool.and_eq_true, decide_eq_true_eq] at stolen
    obtain ⟨before, body, block, tail, rfl, bodyWidth, blockWidth, filled, short⟩ :=
      eq_append_of_long fits.positive stolen.2
    have frontWidth : (body ++ block).length = (before + 1) * size := by
      rw [List.length_append, bodyWidth, blockWidth, Nat.succ_mul]
    have aligned : size ∣ (body ++ block).length := frontWidth ▸ Nat.dvd_mul_left _ _
    have counted := (stealing_lengths (m := m) fits.iv bodyWidth blockWidth filled short).2
    rw [fits.blockLength] at counted
    rw [← List.append_assoc] at counted ⊢
    apply Completes.after counted
    apply Completes.after (Checked.split_append_gives frontWidth tail)
    apply Completes.bind (encryptRun_completes keeps fits aligned)
    rintro ⟨next, encrypted⟩ ⟨nextFits, width⟩
    simp only at nextFits width
    have inside : before * size ≤ encrypted.length := by
      rw [width, frontWidth]
      exact Nat.mul_le_mul_right size (Nat.le_succ before)
    have sealedWidth : (encrypted.drop (before * size)).length = size := by
      rw [List.length_drop, width, frontWidth, Nat.succ_mul, Nat.add_sub_cancel_left]
    apply Completes.after (Checked.subtract_gives (Nat.le_add_left 1 before))
    apply Completes.after (Checked.split_gives inside)
    apply Completes.bind (stealTail_completes keeps nextFits sealedWidth short)
    rintro ⟨last, ending⟩ ⟨lastFits, endingWidth⟩
    refine Completes.pure ⟨lastFits, ?_⟩
    simp only at endingWidth ⊢
    rw [List.length_append, List.length_take_of_le inside, endingWidth, List.length_append,
      frontWidth, Nat.succ_mul]
    omega
  · rw [if_neg stolen]
    exact wholeBlocks_completes fits buffer fun _ aligned => encryptRun_completes keeps fits aligned

/-- A message is decrypted, with stealing or without, aligned or not. -/
theorem decrypt_completes (keeps : cipher.KeepsLengths size) (stealing : Bool)
    (fits : chain.Fits size) (buffer : Bytes) :
    Completes (decrypt cipher stealing chain buffer) (Chain.Returns size buffer.length) := by
  rw [decrypt]
  simp only [fits.blockLength]
  by_cases stolen : steals stealing buffer.length size = true
  · rw [if_pos stolen]
    rw [steals, Bool.and_eq_true, decide_eq_true_eq] at stolen
    obtain ⟨before, body, swapped, tail, rfl, bodyWidth, swappedWidth, filled, short⟩ :=
      eq_append_of_long fits.positive stolen.2
    have aligned : size ∣ body.length := bodyWidth ▸ Nat.dvd_mul_left _ _
    have counted := (stealing_lengths (m := m) fits.iv bodyWidth swappedWidth filled short).2
    rw [fits.blockLength] at counted
    apply Completes.after counted
    apply Completes.after (Checked.subtract_gives (Nat.le_add_left 1 before))
    apply Completes.after (Checked.split_append_gives bodyWidth (swapped ++ tail))
    apply Completes.bind (decryptRun_completes keeps fits aligned)
    rintro ⟨next, decrypted⟩ ⟨nextFits, width⟩
    apply Completes.after (Checked.split_append_gives swappedWidth tail)
    apply Completes.bind (returnTail_completes keeps nextFits swappedWidth short)
    rintro ⟨last, ending⟩ ⟨lastFits, endingWidth⟩
    refine Completes.pure ⟨lastFits, ?_⟩
    simp only at width endingWidth ⊢
    rw [List.length_append, width, endingWidth, List.length_append, List.length_append,
      swappedWidth]
  · rw [if_neg stolen]
    exact wholeBlocks_completes fits buffer fun _ aligned => decryptRun_completes keeps fits aligned

/-- Blocks are chained into a block. -/
theorem macEach_completes (keeps : cipher.KeepsLengths size) {iv : Bytes} (width : iv.length = size)
    (blocks : List Bytes) :
    Completes (macEach cipher iv blocks) fun last => last.length = size := by
  induction blocks generalizing iv with
  | nil => exact Completes.pure width
  | cons block rest inductionHypothesis =>
    rw [macEach]
    apply Completes.bind (keeps.encrypt_completes ((Bytes.length_mask iv block).trans width))
    intro next nextWidth
    exact inductionHypothesis nextWidth

/-- A message is chained into the value, if it has a whole block, and it says so. -/
theorem mac_completes (keeps : cipher.KeepsLengths size) (fits : chain.Fits size) (buffer : Bytes) :
    Completes (mac cipher chain buffer) fun result =>
      result.1.Fits size ∧ (result.2 = true ↔ buffer.length / size * size ≠ 0) := by
  obtain ⟨counted, cut, aligned⟩ := split_blocks_gives (m := m) fits buffer
  rw [mac]
  simp only [fits.blockLength]
  apply Completes.after counted
  split
  · next short => exact Completes.pure ⟨fits, iff_of_false Bool.false_ne_true (not_not.mpr short)⟩
  · next filled =>
    apply Completes.after cut
    cases available : cipher.bulk with
    | some bulk =>
      have routine := (keeps.bulk bulk available).cbcMac chain.iv _ fits.iv aligned
      apply Completes.bind (Completes.lift routine)
      intro last width
      exact Completes.pure ⟨fits.withIv width, iff_of_true rfl filled⟩
    | none =>
      apply Completes.bind (macEach_completes keeps fits.iv _)
      intro last width
      exact Completes.pure ⟨fits.withIv width, iff_of_true rfl filled⟩

end BlockChaining

/-- Less than a block begins a new block of keystream, of which the rest is carried. -/
theorem KeyedCipher.KeepsLengths.begun_completes (keeps : cipher.KeepsLengths size)
    (fits : chain.Fits size) {buffer : Bytes} (short : buffer.length < size)
    {finish : Chain → (carry : Nat) → Chain × Bytes}
    (ends : ∀ (next : Chain) (carry : Nat), next.Fits size → carry < size →
      Chain.Returns size buffer.length (finish next carry)) :
    Completes (if buffer.isEmpty then pure (chain, [])
        else do
          let next ← chain.advance cipher
          let carry ← Checked.subtract next.blockLength buffer.length
          pure (finish next carry))
      (Chain.Returns size buffer.length) := by
  split
  · next empty =>
    have none : buffer = [] := List.isEmpty_iff.mp empty
    exact Completes.pure ⟨fits, by rw [none]⟩
  · next filled =>
    rw [List.isEmpty_iff_length_eq_zero] at filled
    apply Completes.bind (keeps.advance_completes fits)
    rintro next ⟨nextFits, _⟩
    rw [nextFits.blockLength]
    apply Completes.after (Checked.subtract_gives (Nat.le_of_lt short))
    exact Completes.pure (ends _ _ nextFits (by omega))

/-- A buffer that goes through up to the carry, and from there on, goes through. -/
theorem Chain.carriedFirst_completes {buffer : Bytes} (inside : chain.carry ≤ buffer.length)
    {first : Bytes → Checked m (Chain × Bytes)} {second : Chain → Bytes → Checked m (Chain × Bytes)}
    (leads : ∀ front : Bytes, front.length ≤ chain.carry →
      Completes (first front) (Returns size front.length))
    (follows : ∀ (rest : Bytes) (next : Chain), next.Fits size →
      Completes (second next rest) (Returns size rest.length)) :
    Completes (do
        let (front, rest) ← Checked.split chain.carry buffer
        let (next, carried) ← first front
        let (last, output) ← second next rest
        pure (last, carried ++ output))
      (Returns size buffer.length) := by
  apply Completes.after (Checked.split_gives inside)
  apply Completes.bind (leads _ (List.length_take_le _ _))
  rintro ⟨next, carried⟩ ⟨nextFits, carriedWidth⟩
  apply Completes.bind (follows _ _ nextFits)
  rintro ⟨last, output⟩ ⟨lastFits, outputWidth⟩
  refine Completes.pure ⟨lastFits, ?_⟩
  simp only at carriedWidth outputWidth ⊢
  rw [List.length_append, carriedWidth, outputWidth, ← List.length_append, List.take_append_drop]

/-- Feeding a buffer keeps the lengths of the keystream block and of the buffer. -/
theorem length_feed (direction : Direction) (pad buffer : Bytes) :
    (feed direction pad buffer).1.length = pad.length ∧
      (feed direction pad buffer).2.length = buffer.length :=
  ⟨Bytes.length_overlay _ _, Bytes.length_mask _ _⟩

namespace CipherFeedback

open Keystream

/-- Within the carry nothing is encrypted. -/
theorem fromCarry_completes (direction : Direction) (fits : chain.Fits size) {buffer : Bytes}
    (short : buffer.length ≤ chain.carry) :
    Completes (fromCarry direction chain buffer : Checked m (Chain × Bytes))
      (Chain.Returns size buffer.length) :=
  Completes.of_gives (fromCarry_gives id direction fits short)
    ⟨pass_fits id _ buffer (fun _ width => width) fits, length_pass id _ chain buffer⟩

/-- Blocks are fed through the cipher one by one, and the last chaining value is a block. -/
theorem feedEach_completes (keeps : cipher.KeepsLengths size) (direction : Direction) {iv : Bytes}
    (width : iv.length = size) (blocks : List Bytes) :
    Completes (feedEach cipher direction iv blocks) fun result =>
      result.1.length = size ∧ result.2.flatten.length = blocks.flatten.length := by
  induction blocks generalizing iv with
  | nil => exact Completes.pure ⟨width, rfl⟩
  | cons block rest inductionHypothesis =>
    rw [feedEach]
    apply Completes.bind (keeps.encrypt_completes width)
    intro pad padWidth
    obtain ⟨nextWidth, outputWidth⟩ := length_feed direction pad block
    apply Completes.bind (inductionHypothesis (nextWidth.trans padWidth))
    intro result ends
    exact Completes.pure ⟨ends.1, Bytes.length_flatten_cons outputWidth ends.2⟩

omit [LawfulMonad m] in
/-- The bulk routine of either direction keeps lengths. -/
theorem bulk_keeps {bulk : BulkRoutines m} {context : Bytes}
    (keeps : bulk.KeepsLengths context size) (direction : Direction) {iv blocks : Bytes}
    (width : iv.length = size) (aligned : size ∣ blocks.length) :
    Ensures ((match direction with
        | .encrypt => bulk.cfbEncrypt
        | .decrypt => bulk.cfbDecrypt) context iv blocks)
      fun result => result.1.length = size ∧ result.2.length = blocks.length := by
  cases direction with
  | encrypt => exact keeps.cfbEncrypt iv blocks width aligned
  | decrypt => exact keeps.cfbDecrypt iv blocks width aligned

/-- What the leading blocks leave of a buffer is less than two blocks. -/
theorem leadingBlocks_completes (keeps : cipher.KeepsLengths size) (direction : Direction)
    (fits : chain.Fits size) (buffer : Bytes) :
    Completes (leadingBlocks cipher direction chain buffer) fun result =>
      result.1.Fits size ∧ result.2.1.length + result.2.2.length = buffer.length ∧
        result.2.2.length < 2 * size := by
  have positive := fits.positive
  have total := Nat.div_add_mod' buffer.length size
  have rest := Nat.mod_lt buffer.length positive
  rw [leadingBlocks]
  simp only [fits.blockLength]
  split
  · next few => exact Completes.pure ⟨fits, Nat.zero_add _, few⟩
  · next several =>
    obtain ⟨counted, cut, aligned⟩ := BlockChaining.split_blocks_gives (m := m) fits buffer
    apply Completes.after counted
    cases available : cipher.bulk with
    | some bulk =>
      have routine := bulk_keeps (keeps.bulk bulk available) direction fits.iv aligned
      apply Completes.after cut
      apply Completes.bind (Completes.lift routine)
      intro result ends
      refine Completes.pure ⟨fits.withIv ends.1, ?_, ?_⟩
      · simp only [ends.2]
        rw [← List.length_append, List.take_append_drop]
      · simp only [List.length_drop]
        omega
    | none =>
      have whole : 1 ≤ buffer.length / size := by
        rw [Nat.one_le_div_iff positive]
        omega
      have before : (buffer.length / size - 1) * size + size = buffer.length / size * size := by
        rw [← Nat.succ_mul, Nat.succ_eq_add_one, Nat.sub_add_cancel whole]
      have inside : (buffer.length / size - 1) * size ≤ buffer.length := by omega
      apply Completes.after (Checked.subtract_gives whole)
      apply Completes.after (Checked.split_gives inside)
      apply Completes.bind (feedEach_completes keeps direction fits.iv _)
      intro result ends
      refine Completes.pure ⟨fits.withIv ends.1, ?_, ?_⟩
      · simp only [ends.2]
        rw [Bytes.flatten_cut, List.take_take, Nat.min_self, ← List.length_append,
          List.take_append_drop]
      · simp only [List.length_drop]
        omega

/-- What one more whole block leaves is less than a block. -/
theorem wholeBlock_completes (keeps : cipher.KeepsLengths size) (direction : Direction)
    (fits : chain.Fits size) {buffer : Bytes} (few : buffer.length < 2 * size) :
    Completes (wholeBlock cipher direction chain buffer) fun result =>
      result.1.Fits size ∧ result.2.1.length + result.2.2.length = buffer.length ∧
        result.2.2.length < size := by
  rw [wholeBlock]
  simp only [fits.blockLength]
  split
  · next short => exact Completes.pure ⟨fits, Nat.zero_add _, short⟩
  · next filled =>
    have inside : size ≤ buffer.length := Nat.not_lt.mp filled
    apply Completes.after (Checked.split_gives inside)
    apply Completes.bind (keeps.advance_completes fits)
    rintro next ⟨nextFits, _⟩
    obtain ⟨ivWidth, outputWidth⟩ := length_feed direction next.iv (buffer.take size)
    refine Completes.pure ⟨nextFits.withIv (ivWidth.trans nextFits.iv), ?_, ?_⟩
    · simp only [outputWidth]
      rw [← List.length_append, List.take_append_drop]
    · simp only [List.length_drop]
      omega

/-- The last bytes carry on what they leave of a block. -/
theorem partialBlock_completes (keeps : cipher.KeepsLengths size) (direction : Direction)
    (fits : chain.Fits size) {buffer : Bytes} (short : buffer.length < size) :
    Completes (partialBlock cipher direction chain buffer) (Chain.Returns size buffer.length) := by
  refine keeps.begun_completes fits short fun next carry nextFits few => ?_
  obtain ⟨ivWidth, outputWidth⟩ := length_feed direction next.iv buffer
  exact ⟨⟨ivWidth.trans nextFits.iv, nextFits.previous, nextFits.counter, nextFits.scratch, few⟩,
    outputWidth⟩

/-- At a block boundary a message of any length goes through: its whole blocks first, then the rest
with a fresh pad of which some is carried on. -/
theorem fromBoundary_completes (keeps : cipher.KeepsLengths size) (direction : Direction)
    (fits : chain.Fits size) (buffer : Bytes) :
    Completes (fromBoundary cipher direction chain buffer) (Chain.Returns size buffer.length) := by
  rw [fromBoundary]
  apply Completes.bind (leadingBlocks_completes keeps direction fits buffer)
  rintro ⟨first, leading, rest⟩ ⟨firstFits, total, few⟩
  apply Completes.bind (wholeBlock_completes keeps direction firstFits few)
  rintro ⟨second, block, left⟩ ⟨secondFits, blockTotal, short⟩
  apply Completes.bind (partialBlock_completes keeps direction secondFits short)
  rintro ⟨last, ending⟩ ⟨lastFits, endingWidth⟩
  refine Completes.pure ⟨lastFits, ?_⟩
  simp only at total blockTotal endingWidth ⊢
  rw [List.length_append, List.length_append, endingWidth, ← total, ← blockTotal, Nat.add_assoc]

/-- A message of any length goes through, in bulk or block by block. -/
theorem transform_completes (keeps : cipher.KeepsLengths size) (direction : Direction)
    (fits : chain.Fits size) (buffer : Bytes) :
    Completes (transform cipher direction chain buffer) (Chain.Returns size buffer.length) := by
  rw [transform]
  split
  · next short => exact fromCarry_completes direction fits short
  · next long =>
    exact Chain.carriedFirst_completes (Nat.le_of_lt (Nat.not_le.mp long))
      (fun _ short => fromCarry_completes direction fits short)
      fun rest _ nextFits => fromBoundary_completes keeps direction nextFits rest

/-- A realignment goes through. -/
theorem realign_completes (fits : chain.Fits size) :
    Completes (realign chain : Checked m Chain) (Chain.Fits size) := by
  by_cases boundary : chain.carry = 0
  · rw [realign, if_pos boundary]
    exact Completes.pure fits
  · obtain ⟨width, given⟩ := realign_gives (m := m) fits boundary
    exact Completes.of_gives given
      ⟨width, fits.previous, fits.counter, fits.scratch, fits.positive⟩

end CipherFeedback

namespace OutputFeedback

open Keystream

/-- As long as the message ends within the pad that is carried, it goes through without the
cipher. -/
theorem fromCarry_completes (fits : chain.Fits size) {buffer : Bytes}
    (short : buffer.length ≤ chain.carry) :
    Completes (fromCarry chain buffer : Checked m (Chain × Bytes))
      (Chain.Returns size buffer.length) :=
  Completes.of_gives (fromCarry_gives id fits short)
    ⟨pass_fits id _ buffer (fun _ width => width) fits, length_pass id _ chain buffer⟩

/-- Blocks are masked one by one with the output fed back. -/
theorem maskEach_completes (keeps : cipher.KeepsLengths size) (fits : chain.Fits size)
    (blocks : List Bytes) :
    Completes (maskEach cipher chain blocks) fun result =>
      result.1.Fits size ∧ result.2.flatten.length = blocks.flatten.length := by
  induction blocks generalizing chain with
  | nil => exact Completes.pure ⟨fits, rfl⟩
  | cons block rest inductionHypothesis =>
    rw [maskEach]
    apply Completes.bind (keeps.advance_completes fits)
    rintro next ⟨nextFits, _⟩
    apply Completes.bind (inductionHypothesis nextFits)
    intro result ends
    exact Completes.pure ⟨ends.1, Bytes.length_flatten_cons (Bytes.length_mask _ _) ends.2⟩

/-- A last piece that is no whole block goes through, and leaves the rest of its pad carried. -/
theorem partialBlock_completes (keeps : cipher.KeepsLengths size) (fits : chain.Fits size)
    {buffer : Bytes} (short : buffer.length < size) :
    Completes (partialBlock cipher chain buffer) (Chain.Returns size buffer.length) := by
  refine keeps.begun_completes fits short fun next carry nextFits few => ?_
  exact ⟨⟨nextFits.iv, nextFits.previous, nextFits.counter, nextFits.scratch, few⟩,
    Bytes.length_mask _ _⟩

/-- At a block boundary a message of any length goes through: whole blocks first, then the rest. -/
theorem fromBoundary_completes (keeps : cipher.KeepsLengths size) (fits : chain.Fits size)
    (buffer : Bytes) :
    Completes (fromBoundary cipher chain buffer) (Chain.Returns size buffer.length) := by
  have short : (buffer.drop (buffer.length / size * size)).length < size := by
    have total := Nat.div_add_mod' buffer.length size
    have rest := Nat.mod_lt buffer.length fits.positive
    rw [List.length_drop]
    omega
  rw [fromBoundary]
  simp only [fits.blockLength]
  apply Completes.after (Checked.wholeBlocks_gives buffer fits.positive)
  apply Completes.bind (maskEach_completes keeps fits _)
  rintro ⟨next, outputs⟩ ⟨nextFits, total⟩
  apply Completes.bind (partialBlock_completes keeps nextFits short)
  rintro ⟨last, ending⟩ ⟨lastFits, endingWidth⟩
  refine Completes.pure ⟨lastFits, ?_⟩
  have whole := Bytes.length_blocks total
  simp only [List.length_append] at whole endingWidth ⊢
  rw [endingWidth, whole]

/-- A message of any length goes through. -/
theorem transform_completes (keeps : cipher.KeepsLengths size) (fits : chain.Fits size)
    (buffer : Bytes) :
    Completes (transform cipher chain buffer) (Chain.Returns size buffer.length) := by
  rw [transform]
  split
  · next short => exact fromCarry_completes fits short
  · next long =>
    exact Chain.carriedFirst_completes (Nat.le_of_lt (Nat.not_le.mp long))
      (fun _ short => fromCarry_completes fits short)
      fun rest _ nextFits => fromBoundary_completes keeps nextFits rest

end OutputFeedback

namespace Counter

/-- Pieces are masked one by one, each with the counter after the one before. -/
theorem maskEach_completes (keeps : cipher.KeepsLengths size) (fits : chain.Fits size)
    (chunks : List Bytes) :
    Completes (maskEach cipher chain chunks) fun result =>
      result.1.Fits size ∧ result.2.flatten.length = chunks.flatten.length := by
  induction chunks generalizing chain with
  | nil => exact Completes.pure ⟨fits, rfl⟩
  | cons chunk rest inductionHypothesis =>
    rw [maskEach]
    apply Completes.after (Checked.replace_gives (fits.counter.trans fits.scratch.symm))
    apply Completes.bind (keeps.encrypt_completes fits.counter)
    intro scratch scratchWidth
    have nextFits : Chain.Fits size
        { chain with counter := successor chain.counter, scratch } :=
      ⟨fits.iv, fits.previous, (length_successor _).trans fits.counter, scratchWidth, fits.carry⟩
    apply Completes.bind (inductionHypothesis nextFits)
    intro result ends
    exact Completes.pure ⟨ends.1, Bytes.length_flatten_cons (Bytes.length_mask _ _) ends.2⟩

/-- A message of any length goes through. -/
theorem transform_completes (keeps : cipher.KeepsLengths size) (fits : chain.Fits size)
    (buffer : Bytes) :
    Completes (transform cipher chain buffer) (Chain.Returns size buffer.length) := by
  obtain ⟨pieces, given, _, joined, _⟩ := chunks_gives (m := m) fits.positive buffer
  rw [transform]
  simp only [fits.blockLength]
  apply Completes.after given
  apply Completes.bind (maskEach_completes keeps fits pieces)
  rintro ⟨next, outputs⟩ ⟨nextFits, total⟩
  refine Completes.pure ⟨⟨nextFits.iv, nextFits.previous, nextFits.counter, ?_, nextFits.carry⟩, ?_⟩
  · exact (Bytes.length_zeros _).trans nextFits.scratch
  · exact total.trans (by rw [joined])

end Counter

namespace KeyedCipher.Computes

variable {functions : BlockFunctions}

omit [Monad m] [LawfulMonad m] in
/-- Blocks are chained into a block. -/
theorem length_macSteps [Functor m] (computes : cipher.Computes functions size) {iv : Bytes}
    (width : iv.length = size) (blocks : List Bytes) :
    (blocks.foldl (Bulk.cbcMacStep functions cipher.context) iv).length = size := by
  induction blocks generalizing iv with
  | nil => exact width
  | cons block rest inductionHypothesis =>
    exact inductionHypothesis
      (computes.lengthEncrypt _ ((Bytes.length_mask iv block).trans width))

/-- A cipher that computes functions on blocks keeps lengths, in bulk and block by block. -/
theorem keepsLengths (computes : cipher.Computes functions size) (positive : 0 < size) :
    cipher.KeepsLengths size := by
  have of_run {computation : m (Bytes × Bytes)} {step : (iv block : Bytes) → Bytes × Bytes}
      {iv blocks : Bytes} (yielded : Yields computation (Bulk.runBlocks size step iv blocks))
      (sized : Bulk.Sized size step) (width : iv.length = size) (aligned : size ∣ blocks.length) :
      Ensures computation fun result =>
        result.1.length = size ∧ result.2.length = blocks.length := by
    refine Ensures.mono yielded fun result same => ?_
    rw [same]
    exact Bulk.runBlocks_sized sized positive width aligned
  constructor
  · intro block width
    exact Ensures.mono (computes.encrypts block width) fun _ same =>
      same ▸ computes.lengthEncrypt block width
  · intro block width
    exact Ensures.mono (computes.decrypts block width) fun _ same =>
      same ▸ computes.lengthDecrypt block width
  · intro bulk available
    have honours := computes.bulk bulk available
    constructor
    · intro iv blocks width aligned
      exact of_run (honours.cbcEncrypt iv blocks width aligned)
        (BlockChaining.encryptStep_sized computes) width aligned
    · intro iv blocks width aligned
      exact of_run (honours.cbcDecrypt iv blocks width aligned)
        (BlockChaining.decryptStep_sized computes) width aligned
    · intro iv blocks width aligned
      exact of_run (honours.cfbEncrypt iv blocks width aligned)
        (CipherFeedback.feedStep_sized computes .encrypt) width aligned
    · intro iv blocks width aligned
      exact of_run (honours.cfbDecrypt iv blocks width aligned)
        (CipherFeedback.feedStep_sized computes .decrypt) width aligned
    · intro iv blocks width aligned
      refine Ensures.mono (honours.cbcMac iv blocks width aligned) fun last same => ?_
      rw [same]
      exact computes.length_macSteps width _

end KeyedCipher.Computes

/-- A primitive without a stream transform that computes functions on blocks keeps lengths. -/
theorem Algorithm.Computes.keepsLengths {algorithm : Algorithm m} {functions : BlockFunctions}
    (computes : algorithm.Computes functions) (positive : 0 < algorithm.blockLength.toNat)
    (blocksOnly : algorithm.primitive.stream = none) : algorithm.KeepsLengths := by
  constructor
  · exact fun block present context width =>
      (computes block present context width).keepsLengths positive
  · intro stream present
    rw [blocksOnly] at present
    cases present
  · intro stream present
    rw [blocksOnly] at present
    cases present

namespace Aes

/-- AES computes its functions, block by block and in bulk. -/
theorem algorithm_computes (variant : Variant) :
    (algorithm variant : Algorithm m).Computes (blockFunctions variant) := by
  refine Algorithm.computes_of_functions rfl
    (fun _ given => (Option.some.inj given).symm) fun context block width => ?_
  have sixteen : block.length = 16 := width
  exact ⟨(Block.length_toBytes _).trans sixteen.symm, (Block.length_toBytes _).trans sixteen.symm⟩

/-- So AES keeps lengths. -/
theorem algorithm_keepsLengths (variant : Variant) :
    (algorithm variant : Algorithm m).KeepsLengths :=
  (algorithm_computes variant).keepsLengths (show 0 < 16 by decide) rfl

end Aes

end CipherEngine
