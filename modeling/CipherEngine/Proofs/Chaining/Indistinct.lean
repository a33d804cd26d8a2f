import CipherEngine.Chaining.Codebook
import CipherEngine.Chaining.Counter
import CipherEngine.Chaining.OutputFeedback
import CipherEngine.Proofs.Chaining.Matching

/-!
# Chains that no mode can tell apart

Whatever the mode, a transform of one chain by one of two matching ciphers runs in
parallel with that of an indistinct chain by the other, and leaves indistinct chains.
-/
namespace CipherEngine

variable {reading : Chain.Reading} {chain other : Chain}
  {m n : Type → Type} [Monad m] [LawfulMonad m] [Monad n] [LawfulMonad n]
  {correspondence : Correspondence m n}
  {cipher : KeyedCipher m} {otherCipher : KeyedCipher n}

namespace Codebook

/-- Blocks one by one, in parallel. -/
theorem each_parallel (same : cipher.Matches correspondence reading otherCipher)
    (direction : Direction) (blocks : List Bytes) :
    Parallel correspondence (· = ·) (each cipher direction blocks)
      (each otherCipher direction blocks) := by
  have run (block : Bytes) : Parallel correspondence (· = ·) (cipher.run direction block)
      (otherCipher.run direction block) := by
    cases direction with
    | encrypt => exact same.encrypt_parallel block
    | decrypt => exact same.decrypt_parallel block
  induction blocks with
  | nil => exact Parallel.pure rfl
  | cons block rest inductionHypothesis =>
    rw [each, each]
    apply Parallel.bind (run block)
    rintro first _ rfl
    apply Parallel.bind inductionHypothesis
    rintro others _ rfl
    exact Parallel.pure rfl

/-- A buffer is transformed block by block in parallel. -/
theorem transform_parallel (same : cipher.Matches correspondence reading otherCipher)
    (indistinct : chain.Indistinct reading other) (direction : Direction) (buffer : Bytes) :
    Parallel correspondence (· = ·) (transform cipher direction chain buffer)
      (transform otherCipher direction other buffer) := by
  rw [transform, transform, Chain.blockLength, Chain.blockLength, indistinct.iv]
  apply Parallel.bind (Checked.wholeBlocks_parallel correspondence _ _)
  rintro ⟨blocks, rest⟩ _ rfl
  apply Parallel.bind (each_parallel same direction blocks)
  rintro outputs _ rfl
  exact Parallel.pure rfl

end Codebook

namespace BlockChaining

/-- The blocks before a tail are counted in parallel. -/
theorem blocksBeforeTail_parallel (correspondence : Correspondence m n)
    (length blockLength : Nat) :
    Parallel correspondence (· = ·) (blocksBeforeTail length blockLength : Checked m Nat)
      (blocksBeforeTail length blockLength) := by
  apply Parallel.bind (Checked.quotient_parallel correspondence _ _)
  rintro whole _ rfl
  split
  · exact (Checked.subtract_parallel correspondence _ _).mono fun _ _ same => same.1
  · exact Parallel.pure rfl

/-- The last block is swapped with the tail in parallel. -/
theorem stealTail_parallel (same : cipher.Matches correspondence reading otherCipher)
    (indistinct : chain.Indistinct reading other) (block tail : Bytes) :
    Parallel correspondence (SameOutput reading) (stealTail cipher chain block tail)
      (stealTail otherCipher other block tail) := by
  rw [stealTail, stealTail, indistinct.iv]
  apply Parallel.bind (Checked.split_parallel correspondence _ _)
  rintro stolen _ ⟨rfl, _⟩
  apply Parallel.bind (Checked.split_parallel correspondence _ _)
  rintro ivPieces _ ⟨rfl, _⟩
  apply Parallel.bind (Checked.replace_parallel correspondence _ rfl)
  rintro _ _ ⟨rfl, rfl, _⟩
  apply Parallel.bind (same.encrypt_parallel _)
  rintro last _ rfl
  apply Parallel.bind (Checked.replace_parallel correspondence _ rfl)
  rintro _ _ ⟨rfl, rfl, _⟩
  exact Parallel.pure ⟨indistinct.withIv last, rfl⟩

/-- A message is encrypted in parallel, with stealing or without. -/
theorem encrypt_parallel (same : cipher.Matches correspondence reading otherCipher)
    (rests : reading.rests) (indistinct : chain.Indistinct reading other)
    (sized : chain.Sized reading.size) (stealing : Bool) (buffer : Bytes) :
    Parallel correspondence (SameOutput reading) (encrypt cipher stealing chain buffer)
      (encrypt otherCipher stealing other buffer) := by
  have boundary := indistinct.boundary rests
  rw [encrypt, encrypt, Chain.blockLength, Chain.blockLength, indistinct.iv, sized.iv]
  dsimp only
  split
  · apply Parallel.bind (blocksBeforeTail_parallel correspondence _ _)
    rintro count _ rfl
    apply Parallel.bind (Checked.split_parallel correspondence _ _)
    rintro ⟨head, tail⟩ _ ⟨rfl, whole, _⟩
    apply Parallel.bind
      (same.encryptRun indistinct sized boundary head (whole ▸ Nat.dvd_mul_left _ count))
    rintro ⟨after, encrypted⟩ ⟨otherAfter, _⟩ ⟨chained, rfl⟩
    apply Parallel.bind (Checked.subtract_parallel correspondence _ _)
    rintro before _ ⟨rfl, _⟩
    apply Parallel.bind (Checked.split_parallel correspondence _ _)
    rintro ⟨body, block⟩ _ ⟨rfl, _⟩
    apply Parallel.bind (stealTail_parallel same chained block tail)
    rintro ⟨last, ending⟩ ⟨otherLast, _⟩ ⟨stolen, rfl⟩
    exact Parallel.pure ⟨stolen, rfl⟩
  · apply Parallel.bind (Checked.quotient_parallel correspondence _ _)
    rintro count _ rfl
    apply Parallel.bind (Checked.split_parallel correspondence _ _)
    rintro ⟨head, tail⟩ _ ⟨rfl, whole, _⟩
    apply Parallel.bind
      (same.encryptRun indistinct sized boundary head (whole ▸ Nat.dvd_mul_left _ count))
    rintro ⟨after, encrypted⟩ ⟨otherAfter, _⟩ ⟨chained, rfl⟩
    exact Parallel.pure ⟨chained, rfl⟩

/-- The swap is undone in parallel. -/
theorem returnTail_parallel (same : cipher.Matches correspondence reading otherCipher)
    (indistinct : chain.Indistinct reading other) (swapped tail : Bytes) :
    Parallel correspondence (SameOutput reading) (returnTail cipher chain swapped tail)
      (returnTail otherCipher other swapped tail) := by
  apply Parallel.bind indistinct.keepPrevious
  rintro _ _ ⟨kept, rfl, rfl⟩
  apply Parallel.bind (same.decrypt_parallel swapped)
  rintro opened _ rfl
  apply Parallel.bind (Checked.split_parallel correspondence _ _)
  rintro ⟨front, back⟩ _ ⟨rfl, _⟩
  apply Parallel.bind (Checked.replace_parallel correspondence _ (congrArg List.length kept.iv))
  rintro _ _ ⟨rfl, rfl, _⟩
  apply Parallel.bind (same.decrypt_parallel _)
  rintro plain _ rfl
  exact Parallel.pure ⟨kept.withIv _, rfl⟩

/-- A message is decrypted in parallel, with stealing or without. -/
theorem decrypt_parallel (same : cipher.Matches correspondence reading otherCipher)
    (rests : reading.rests) (indistinct : chain.Indistinct reading other)
    (sized : chain.Sized reading.size) (stealing : Bool) (buffer : Bytes) :
    Parallel correspondence (SameOutput reading) (decrypt cipher stealing chain buffer)
      (decrypt otherCipher stealing other buffer) := by
  have boundary := indistinct.boundary rests
  rw [decrypt, decrypt, Chain.blockLength, Chain.blockLength, indistinct.iv, sized.iv]
  dsimp only
  split
  · apply Parallel.bind (blocksBeforeTail_parallel correspondence _ _)
    rintro count _ rfl
    apply Parallel.bind (Checked.subtract_parallel correspondence _ _)
    rintro before _ ⟨rfl, _⟩
    apply Parallel.bind (Checked.split_parallel correspondence _ _)
    rintro ⟨head, ending⟩ _ ⟨rfl, whole, _⟩
    apply Parallel.bind
      (same.decryptRun indistinct sized boundary head (whole ▸ Nat.dvd_mul_left _ before))
    rintro ⟨after, decrypted⟩ ⟨otherAfter, _⟩ ⟨chained, rfl⟩
    apply Parallel.bind (Checked.split_parallel correspondence _ _)
    rintro ⟨swapped, tail⟩ _ ⟨rfl, _⟩
    apply Parallel.bind (returnTail_parallel same chained swapped tail)
    rintro ⟨last, ending⟩ ⟨otherLast, _⟩ ⟨returned, rfl⟩
    exact Parallel.pure ⟨returned, rfl⟩
  · apply Parallel.bind (Checked.quotient_parallel correspondence _ _)
    rintro count _ rfl
    apply Parallel.bind (Checked.split_parallel correspondence _ _)
    rintro ⟨head, tail⟩ _ ⟨rfl, whole, _⟩
    apply Parallel.bind
      (same.decryptRun indistinct sized boundary head (whole ▸ Nat.dvd_mul_left _ count))
    rintro ⟨after, decrypted⟩ ⟨otherAfter, _⟩ ⟨chained, rfl⟩
    exact Parallel.pure ⟨chained, rfl⟩

end BlockChaining

namespace CipherFeedback

omit [LawfulMonad m] [LawfulMonad n] in
/-- Within the carry. -/
theorem fromCarry_parallel (correspondence : Correspondence m n)
    (indistinct : chain.Indistinct reading other) (direction : Direction) (buffer : Bytes) :
    Parallel correspondence (fun result otherResult => SameOutput reading result otherResult ∧
        (chain.Sized reading.size → result.1.Sized reading.size) ∧
        result.1.carry = chain.carry - buffer.length)
      (fromCarry direction chain buffer : Checked m (Chain × Bytes))
      (fromCarry direction other buffer) := by
  rw [fromCarry, fromCarry, Chain.blockLength, Chain.blockLength, indistinct.iv, indistinct.carry]
  apply Parallel.bind (Checked.subtract_parallel correspondence _ _)
  rintro start _ ⟨rfl, _⟩
  apply Parallel.bind (Checked.split_parallel correspondence _ _)
  rintro ⟨used, pad⟩ _ ⟨rfl, _, joined⟩
  apply Parallel.bind (Checked.subtract_parallel correspondence _ _)
  rintro carry _ ⟨rfl, difference⟩
  have stayed : chain.carry = 0 → carry = 0 := fun boundary => by
    rw [difference, boundary, Nat.zero_sub]
  refine Parallel.pure ⟨⟨⟨rfl, rfl, fun rests => stayed (indistinct.boundary rests),
    fun carried => indistinct.previous (mt stayed carried), indistinct.counter, indistinct.width,
    indistinct.otherWidth, indistinct.counterWidth, indistinct.scratch⟩, rfl⟩, ?_, difference⟩
  rintro ⟨iv, previous, counter, scratch⟩
  refine ⟨?_, previous, counter, scratch⟩
  rw [← iv, ← joined]
  simp

/-- The last bytes. -/
theorem partialBlock_parallel (same : cipher.Matches correspondence reading otherCipher)
    (feeds : ¬ reading.rests) (indistinct : chain.Indistinct reading other)
    (direction : Direction) (buffer : Bytes) :
    Parallel correspondence (SameOutput reading) (partialBlock cipher direction chain buffer)
      (partialBlock otherCipher direction other buffer) := by
  rw [partialBlock, partialBlock]
  split
  · exact Parallel.pure ⟨indistinct, rfl⟩
  · apply Parallel.bind (same.advance_parallel indistinct)
    rintro after otherAfter ⟨advanced, samePrevious⟩
    rw [Chain.blockLength, Chain.blockLength, advanced.iv]
    apply Parallel.bind (Checked.subtract_parallel correspondence _ _)
    rintro carry _ ⟨rfl, _⟩
    exact Parallel.pure ⟨⟨rfl, rfl, fun rests => absurd rests feeds, fun _ => samePrevious,
      advanced.counter, advanced.width, advanced.otherWidth, advanced.counterWidth,
      advanced.scratch⟩, rfl⟩

omit [LawfulMonad n] in
/-- What begins at a block boundary are whole blocks and the last bytes. -/
theorem fromBoundary_eq (cipher : KeyedCipher m) (direction : Direction) (chain : Chain)
    (buffer : Bytes) :
    fromBoundary cipher direction chain buffer = (do
      let (chain, front, buffer) ← wholeBlocks cipher direction chain buffer
      let (chain, ending) ← partialBlock cipher direction chain buffer
      pure (chain, front ++ ending)) := by
  simp [fromBoundary, wholeBlocks]

/-- From a block boundary. -/
theorem fromBoundary_parallel (same : cipher.Matches correspondence reading otherCipher)
    (feeds : ¬ reading.rests) (indistinct : chain.Indistinct reading other)
    (boundary : chain.carry = 0) (sized : chain.Sized reading.size) (direction : Direction)
    (buffer : Bytes) :
    Parallel correspondence (SameOutput reading) (fromBoundary cipher direction chain buffer)
      (fromBoundary otherCipher direction other buffer) := by
  rw [fromBoundary_eq, fromBoundary_eq]
  apply Parallel.bind (same.wholeBlocks indistinct sized boundary direction buffer)
  rintro ⟨whole, front, rest⟩ ⟨otherWhole, _⟩ ⟨afterWhole, rfl⟩
  apply Parallel.bind (partialBlock_parallel same feeds afterWhole direction rest)
  rintro ⟨after, ending⟩ ⟨otherAfter, _⟩ ⟨afterAll, rfl⟩
  exact Parallel.pure ⟨afterAll, rfl⟩

/-- A transform of one chain runs in parallel with that of an indistinct one. -/
theorem transform_parallel (same : cipher.Matches correspondence reading otherCipher)
    (feeds : ¬ reading.rests) (indistinct : chain.Indistinct reading other)
    (sized : chain.Sized reading.size) (direction : Direction) (buffer : Bytes) :
    Parallel correspondence (SameOutput reading) (transform cipher direction chain buffer)
      (transform otherCipher direction other buffer) := by
  rw [transform, transform, indistinct.carry]
  split
  · exact (fromCarry_parallel correspondence indistinct direction buffer).mono
      fun _ _ carried => carried.1
  · apply Parallel.bind (Checked.split_parallel correspondence _ _)
    rintro ⟨head, rest⟩ _ ⟨rfl, covered, _⟩
    apply Parallel.bind (fromCarry_parallel correspondence indistinct direction head)
    rintro ⟨middle, carried⟩ ⟨otherMiddle, _⟩ ⟨⟨afterCarry, rfl⟩, kept, used⟩
    have boundary : middle.carry = 0 := by
      rw [used, covered, Nat.sub_self]
    apply Parallel.bind
      (fromBoundary_parallel same feeds afterCarry boundary (kept sized) direction rest)
    rintro ⟨after, output⟩ ⟨otherAfter, _⟩ ⟨afterAll, rfl⟩
    exact Parallel.pure ⟨afterAll, rfl⟩

omit [LawfulMonad m] [LawfulMonad n] in
/-- A realignment of one chain runs in parallel with that of an indistinct one. -/
theorem realign_parallel (correspondence : Correspondence m n)
    (indistinct : chain.Indistinct reading other) :
    Parallel correspondence (Chain.Indistinct reading) (realign chain : Checked m Chain)
      (realign other) := by
  rw [realign, realign, Chain.blockLength, Chain.blockLength, indistinct.iv, indistinct.carry]
  split
  · exact Parallel.pure indistinct
  · next carried =>
    rw [indistinct.previous carried]
    apply Parallel.bind (Checked.subtract_parallel correspondence _ _)
    rintro kept _ ⟨rfl, _⟩
    apply Parallel.bind (Checked.split_parallel correspondence _ _)
    rintro pieces _ ⟨rfl, _⟩
    apply Parallel.bind (Checked.split_parallel correspondence _ _)
    rintro earlier _ ⟨rfl, _⟩
    apply Parallel.bind (Checked.replace_parallel correspondence _ rfl)
    rintro _ _ ⟨rfl, rfl, _⟩
    exact Parallel.pure ⟨rfl, rfl, fun _ => rfl, fun inside => absurd rfl inside,
      indistinct.counter, indistinct.width, indistinct.width, indistinct.counterWidth,
      indistinct.scratch⟩

end CipherFeedback

namespace OutputFeedback

omit [LawfulMonad m] [LawfulMonad n] in
/-- Within the carry. -/
theorem fromCarry_parallel (correspondence : Correspondence m n)
    (indistinct : chain.Indistinct reading other) (buffer : Bytes) :
    Parallel correspondence (SameOutput reading)
      (fromCarry chain buffer : Checked m (Chain × Bytes)) (fromCarry other buffer) := by
  rw [fromCarry, fromCarry, Chain.blockLength, Chain.blockLength, indistinct.iv, indistinct.carry]
  apply Parallel.bind (Checked.subtract_parallel correspondence _ _)
  rintro start _ ⟨rfl, _⟩
  apply Parallel.bind (Checked.split_parallel correspondence _ _)
  rintro ⟨used, pad⟩ _ ⟨rfl, _⟩
  apply Parallel.bind (Checked.subtract_parallel correspondence _ _)
  rintro carry _ ⟨rfl, difference⟩
  have stayed : chain.carry = 0 → carry = 0 := fun boundary => by
    rw [difference, boundary, Nat.zero_sub]
  exact Parallel.pure ⟨⟨rfl, rfl, fun rests => stayed (indistinct.boundary rests),
    fun carried => indistinct.previous (mt stayed carried), indistinct.counter, indistinct.width,
    indistinct.otherWidth, indistinct.counterWidth, indistinct.scratch⟩, rfl⟩

/-- Blocks one by one. -/
theorem maskEach_parallel (same : cipher.Matches correspondence reading otherCipher)
    (indistinct : chain.Indistinct reading other) (blocks : List Bytes) :
    Parallel correspondence (SameOutput reading) (maskEach cipher chain blocks)
      (maskEach otherCipher other blocks) := by
  induction blocks generalizing chain other with
  | nil => exact Parallel.pure ⟨indistinct, rfl⟩
  | cons block rest inductionHypothesis =>
    rw [maskEach, maskEach]
    apply Parallel.bind (same.advance_parallel indistinct)
    rintro after otherAfter ⟨advanced, _⟩
    apply Parallel.bind (inductionHypothesis advanced)
    rintro ⟨last, others⟩ ⟨otherLast, _⟩ ⟨afterAll, rfl⟩
    exact Parallel.pure ⟨afterAll, by rw [advanced.iv]⟩

/-- The last bytes. -/
theorem partialBlock_parallel (same : cipher.Matches correspondence reading otherCipher)
    (feeds : ¬ reading.rests) (indistinct : chain.Indistinct reading other) (buffer : Bytes) :
    Parallel correspondence (SameOutput reading) (partialBlock cipher chain buffer)
      (partialBlock otherCipher other buffer) := by
  rw [partialBlock, partialBlock]
  split
  · exact Parallel.pure ⟨indistinct, rfl⟩
  · apply Parallel.bind (same.advance_parallel indistinct)
    rintro after otherAfter ⟨advanced, samePrevious⟩
    rw [Chain.blockLength, Chain.blockLength, advanced.iv]
    apply Parallel.bind (Checked.subtract_parallel correspondence _ _)
    rintro carry _ ⟨rfl, _⟩
    exact Parallel.pure ⟨⟨rfl, rfl, fun rests => absurd rests feeds, fun _ => samePrevious,
      advanced.counter, advanced.width, advanced.otherWidth, advanced.counterWidth,
      advanced.scratch⟩, rfl⟩

/-- From a block boundary. -/
theorem fromBoundary_parallel (same : cipher.Matches correspondence reading otherCipher)
    (feeds : ¬ reading.rests) (indistinct : chain.Indistinct reading other) (buffer : Bytes) :
    Parallel correspondence (SameOutput reading) (fromBoundary cipher chain buffer)
      (fromBoundary otherCipher other buffer) := by
  rw [fromBoundary, fromBoundary, Chain.blockLength, Chain.blockLength, indistinct.iv]
  apply Parallel.bind (Checked.wholeBlocks_parallel correspondence _ _)
  rintro ⟨blocks, rest⟩ _ rfl
  apply Parallel.bind (maskEach_parallel same indistinct blocks)
  rintro ⟨middle, outputs⟩ ⟨otherMiddle, _⟩ ⟨afterBlocks, rfl⟩
  apply Parallel.bind (partialBlock_parallel same feeds afterBlocks rest)
  rintro ⟨after, ending⟩ ⟨otherAfter, _⟩ ⟨afterAll, rfl⟩
  exact Parallel.pure ⟨afterAll, rfl⟩

/-- A transform of one chain runs in parallel with that of an indistinct one. -/
theorem transform_parallel (same : cipher.Matches correspondence reading otherCipher)
    (feeds : ¬ reading.rests) (indistinct : chain.Indistinct reading other) (buffer : Bytes) :
    Parallel correspondence (SameOutput reading) (transform cipher chain buffer)
      (transform otherCipher other buffer) := by
  rw [transform, transform, indistinct.carry]
  split
  · exact fromCarry_parallel correspondence indistinct buffer
  · apply Parallel.bind (Checked.split_parallel correspondence _ _)
    rintro ⟨head, rest⟩ _ ⟨rfl, _⟩
    apply Parallel.bind (fromCarry_parallel correspondence indistinct head)
    rintro ⟨middle, carried⟩ ⟨otherMiddle, _⟩ ⟨afterCarry, rfl⟩
    apply Parallel.bind (fromBoundary_parallel same feeds afterCarry rest)
    rintro ⟨after, output⟩ ⟨otherAfter, _⟩ ⟨afterAll, rfl⟩
    exact Parallel.pure ⟨afterAll, rfl⟩

end OutputFeedback

namespace Counter

/-- Pieces one by one, with counters that agree. -/
theorem maskEach_parallel (same : cipher.Matches correspondence reading otherCipher)
    (counted : reading.counts) (indistinct : chain.Indistinct reading other) (pieces : List Bytes) :
    Parallel correspondence (SameOutput reading) (maskEach cipher chain pieces)
      (maskEach otherCipher other pieces) := by
  induction pieces generalizing chain other with
  | nil => exact Parallel.pure ⟨indistinct, rfl⟩
  | cons piece rest inductionHypothesis =>
    rw [maskEach, maskEach, indistinct.counter counted]
    apply Parallel.bind (Checked.replace_parallel correspondence chain.counter indistinct.scratch)
    rintro _ _ ⟨rfl, rfl, _⟩
    apply Parallel.bind (same.encrypt_parallel _)
    rintro scratch _ rfl
    have next : Chain.Indistinct reading
        { chain with counter := successor chain.counter, scratch }
        { other with counter := successor chain.counter, scratch } :=
      ⟨indistinct.iv, indistinct.carry, indistinct.boundary, indistinct.previous, fun _ => rfl,
        indistinct.width, indistinct.otherWidth, rfl, rfl⟩
    apply Parallel.bind (inductionHypothesis next)
    rintro ⟨last, others⟩ ⟨otherLast, _⟩ ⟨afterAll, rfl⟩
    exact Parallel.pure ⟨afterAll, rfl⟩

/-- A transform of one chain runs in parallel with that of an indistinct one, with
counters that agree. -/
theorem transform_parallel (same : cipher.Matches correspondence reading otherCipher)
    (counted : reading.counts) (indistinct : chain.Indistinct reading other) (buffer : Bytes) :
    Parallel correspondence (SameOutput reading) (transform cipher chain buffer)
      (transform otherCipher other buffer) := by
  have pieces : Parallel correspondence (· = ·) (chunks chain.blockLength buffer : Checked m _)
      (chunks other.blockLength buffer) := by
    rw [Chain.blockLength, Chain.blockLength, indistinct.iv]
    apply Parallel.bind (Checked.wholeBlocks_parallel correspondence _ _)
    rintro ⟨blocks, rest⟩ _ rfl
    exact Parallel.pure rfl
  apply Parallel.bind pieces
  rintro pieces _ rfl
  apply Parallel.bind (maskEach_parallel same counted indistinct pieces)
  rintro ⟨after, outputs⟩ ⟨otherAfter, _⟩ ⟨afterAll, rfl⟩
  refine Parallel.pure ⟨⟨afterAll.iv, afterAll.carry, afterAll.boundary, afterAll.previous,
    afterAll.counter, afterAll.width, afterAll.otherWidth, afterAll.counterWidth, ?_⟩, rfl⟩
  simpa using afterAll.scratch

end Counter

end CipherEngine
