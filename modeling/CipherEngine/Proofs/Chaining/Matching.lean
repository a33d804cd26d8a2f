import CipherEngine.Chaining.BlockChaining
import CipherEngine.Chaining.CipherFeedback
import CipherEngine.Proofs.Chaining.Contract
import CipherEngine.Proofs.Coupling

/-!
# Ciphers that match

The modes read the chaining value and the carry, the counter in counter mode, and the
previous chaining value only inside a block, when a realignment needs it. Chains that
agree on this are `Indistinct`.

Two ciphers match when their single blocks correspond, and so does what they do with a
run of whole blocks on indistinct chains that carry nothing. That is all that a mode
asks of a cipher, and all that separates one with bulk routines from one without. A
cipher matches itself, whatever it does.
-/
namespace CipherEngine

/-- Every buffer of the chain is one block long. -/
structure Chain.Sized (size : Nat) (chain : Chain) : Prop where
  iv : chain.iv.length = size
  previous : chain.previous.length = size
  counter : chain.counter.length = size
  scratch : chain.scratch.length = size

/-- A chain of whole blocks that carries nothing fits. -/
theorem Chain.Sized.fits {size : Nat} {chain : Chain} (sized : chain.Sized size)
    (positive : 0 < size) (boundary : chain.carry = 0) : chain.Fits size :=
  ⟨sized.iv, sized.previous, sized.counter, sized.scratch, boundary ▸ positive⟩

/-- How a mode reads its chains. -/
structure Chain.Reading where
  /-- Bytes of a block. -/
  size : Nat
  /-- Whether the counter is read. -/
  counts : Prop
  /-- Whether nothing is ever carried. -/
  rests : Prop

/-- The chains agree on what can still be read of them. The blocks that may differ have
the same length. -/
structure Chain.Indistinct (reading : Chain.Reading) (chain other : Chain) : Prop where
  iv : other.iv = chain.iv
  carry : other.carry = chain.carry
  boundary : reading.rests → chain.carry = 0
  previous : chain.carry ≠ 0 → other.previous = chain.previous
  counter : reading.counts → other.counter = chain.counter
  width : chain.previous.length = reading.size
  otherWidth : other.previous.length = reading.size
  counterWidth : other.counter.length = chain.counter.length
  scratch : other.scratch.length = chain.scratch.length

/-- Indistinct chains, and the same beside them. -/
def SameOutput {α : Type} (reading : Chain.Reading) (result otherResult : Chain × α) : Prop :=
  Chain.Indistinct reading result.1 otherResult.1 ∧ result.2 = otherResult.2

section Definitions

variable {m n : Type → Type} [Monad m] [Monad n]

/-- All whole blocks of a buffer. Returns what is left, which is less than a block. -/
def CipherFeedback.wholeBlocks (cipher : KeyedCipher m) (direction : Direction) (chain : Chain)
    (buffer : Bytes) : Checked m (Chain × Bytes × Bytes) := do
  let (chain, leading, buffer) ← leadingBlocks cipher direction chain buffer
  let (chain, last, buffer) ← wholeBlock cipher direction chain buffer
  pure (chain, leading ++ last, buffer)

namespace KeyedCipher

/-- The ciphers correspond in single blocks. -/
structure MatchesBlocks (correspondence : Correspondence m n) (cipher : KeyedCipher m)
    (other : KeyedCipher n) : Prop where
  encrypt : ∀ block, correspondence.Relates (· = ·) (cipher.block.encrypt cipher.context block)
    (other.block.encrypt other.context block)
  decrypt : ∀ block, correspondence.Relates (· = ·) (cipher.block.decrypt cipher.context block)
    (other.block.decrypt other.context block)

/-- The ciphers correspond in single blocks and in runs of whole blocks. -/
structure Matches (correspondence : Correspondence m n) (reading : Chain.Reading)
    (cipher : KeyedCipher m) (other : KeyedCipher n) : Prop
    extends MatchesBlocks correspondence cipher other where
  encryptRun : ∀ {chain otherChain : Chain}, chain.Indistinct reading otherChain →
    chain.Sized reading.size → chain.carry = 0 → ∀ buffer : Bytes, reading.size ∣ buffer.length →
      Parallel correspondence (SameOutput reading)
        (BlockChaining.encryptRun cipher chain buffer)
        (BlockChaining.encryptRun other otherChain buffer)
  decryptRun : ∀ {chain otherChain : Chain}, chain.Indistinct reading otherChain →
    chain.Sized reading.size → chain.carry = 0 → ∀ buffer : Bytes, reading.size ∣ buffer.length →
      Parallel correspondence (SameOutput reading)
        (BlockChaining.decryptRun cipher chain buffer)
        (BlockChaining.decryptRun other otherChain buffer)
  mac : ∀ {chain otherChain : Chain}, chain.Indistinct reading otherChain →
    chain.Sized reading.size → chain.carry = 0 → ∀ buffer : Bytes,
      Parallel correspondence (SameOutput reading) (BlockChaining.mac cipher chain buffer)
        (BlockChaining.mac other otherChain buffer)
  wholeBlocks : ∀ {chain otherChain : Chain}, chain.Indistinct reading otherChain →
    chain.Sized reading.size → chain.carry = 0 → ∀ (direction : Direction) (buffer : Bytes),
      Parallel correspondence (SameOutput reading)
        (CipherFeedback.wholeBlocks cipher direction chain buffer)
        (CipherFeedback.wholeBlocks other direction otherChain buffer)

end KeyedCipher

end Definitions

variable {reading : Chain.Reading} {chain other : Chain}

/-- The buffers of indistinct chains have the same lengths. -/
theorem Chain.Indistinct.sized (indistinct : chain.Indistinct reading other)
    (sized : chain.Sized reading.size) : other.Sized reading.size :=
  ⟨indistinct.iv ▸ sized.iv, indistinct.otherWidth, indistinct.counterWidth.trans sized.counter,
    indistinct.scratch.trans sized.scratch⟩

/-- A new chaining value is the same in both. -/
theorem Chain.Indistinct.withIv (indistinct : chain.Indistinct reading other) (iv : Bytes) :
    Chain.Indistinct reading { chain with iv } { other with iv } :=
  ⟨rfl, indistinct.carry, indistinct.boundary, indistinct.previous, indistinct.counter,
    indistinct.width, indistinct.otherWidth, indistinct.counterWidth, indistinct.scratch⟩

/-- A new previous chaining value of one block is the same in both. -/
theorem Chain.Indistinct.withPrevious (indistinct : chain.Indistinct reading other)
    {previous : Bytes} (width : previous.length = reading.size) :
    Chain.Indistinct reading { chain with previous } { other with previous } :=
  ⟨indistinct.iv, indistinct.carry, indistinct.boundary, fun _ => rfl, indistinct.counter, width,
    width, indistinct.counterWidth, indistinct.scratch⟩

/-- At a block boundary it does not matter what the previous chaining values are. -/
theorem Chain.Indistinct.atBoundary (indistinct : chain.Indistinct reading other)
    (boundary : chain.carry = 0) {previous otherPrevious : Bytes}
    (width : previous.length = reading.size) (otherWidth : otherPrevious.length = reading.size) :
    Chain.Indistinct reading { chain with previous }
      { other with previous := otherPrevious } :=
  ⟨indistinct.iv, indistinct.carry, indistinct.boundary, fun inside => absurd boundary inside,
    indistinct.counter, width, otherWidth, indistinct.counterWidth, indistinct.scratch⟩

variable {m n : Type → Type} [Monad m] [LawfulMonad m] [Monad n] [LawfulMonad n]
  {correspondence : Correspondence m n}
  {cipher : KeyedCipher m} {otherCipher : KeyedCipher n}

omit [LawfulMonad m] [LawfulMonad n] in
/-- Chains keep the same value as their previous ones. -/
theorem Chain.Indistinct.keepPrevious (indistinct : chain.Indistinct reading other) :
    Parallel correspondence (fun after otherAfter => Chain.Indistinct reading after otherAfter ∧
        after = { chain with previous := chain.iv } ∧
        otherAfter = { other with previous := chain.iv })
      (chain.keepPrevious : Checked m Chain) (other.keepPrevious : Checked n Chain) := by
  rw [Chain.keepPrevious, Chain.keepPrevious, indistinct.iv]
  apply Parallel.bind (Checked.replace_parallel correspondence chain.iv
    (indistinct.otherWidth.trans indistinct.width.symm))
  rintro _ _ ⟨rfl, rfl, fits⟩
  have kept := indistinct.withPrevious (fits.trans indistinct.width)
  rw [indistinct.iv] at kept
  exact Parallel.pure ⟨kept, rfl, rfl⟩

namespace KeyedCipher.MatchesBlocks

/-- Blocks are encrypted in parallel. -/
theorem encrypt_parallel (same : cipher.MatchesBlocks correspondence otherCipher)
    (block : Bytes) :
    Parallel correspondence (· = ·) (cipher.encrypt block) (otherCipher.encrypt block) :=
  Parallel.lift (same.encrypt block)

/-- Blocks are decrypted in parallel. -/
theorem decrypt_parallel (same : cipher.MatchesBlocks correspondence otherCipher)
    (block : Bytes) :
    Parallel correspondence (· = ·) (cipher.decrypt block) (otherCipher.decrypt block) :=
  Parallel.lift (same.decrypt block)

/-- A chain whose value is kept and encrypted: from then on the previous chaining
values are the same. -/
theorem advance_parallel (same : cipher.MatchesBlocks correspondence otherCipher)
    (indistinct : chain.Indistinct reading other) :
    Parallel correspondence (fun after otherAfter => Chain.Indistinct reading after otherAfter ∧
        otherAfter.previous = after.previous)
      (chain.advance cipher) (other.advance otherCipher) := by
  apply Parallel.bind indistinct.keepPrevious
  rintro _ _ ⟨kept, rfl, rfl⟩
  rw [indistinct.iv]
  apply Parallel.bind (same.encrypt_parallel chain.iv)
  rintro iv _ rfl
  exact Parallel.pure ⟨kept.withIv iv, rfl⟩

end KeyedCipher.MatchesBlocks

/-- A whole block is fed in parallel, if the buffer has one. -/
theorem CipherFeedback.wholeBlock_parallel (same : cipher.MatchesBlocks correspondence otherCipher)
    (indistinct : chain.Indistinct reading other) (direction : Direction) (buffer : Bytes) :
    Parallel correspondence (SameOutput reading) (wholeBlock cipher direction chain buffer)
      (wholeBlock otherCipher direction other buffer) := by
  rw [wholeBlock, wholeBlock, Chain.blockLength, Chain.blockLength, indistinct.iv]
  split
  · exact Parallel.pure ⟨indistinct, rfl⟩
  · apply Parallel.bind (Checked.split_parallel correspondence _ _)
    rintro ⟨block, rest⟩ _ ⟨rfl, _⟩
    apply Parallel.bind (same.advance_parallel indistinct)
    rintro after otherAfter ⟨advanced, _⟩
    rw [advanced.iv]
    exact Parallel.pure ⟨advanced.withIv _, rfl⟩

/-- Blocks are decrypted in parallel, one by one. -/
theorem BlockChaining.decryptEach_parallel
    (same : cipher.MatchesBlocks correspondence otherCipher)
    (indistinct : chain.Indistinct reading other) (blocks : List Bytes) :
    Parallel correspondence (SameOutput reading) (decryptEach cipher chain blocks)
      (decryptEach otherCipher other blocks) := by
  induction blocks generalizing chain other with
  | nil => exact Parallel.pure ⟨indistinct, rfl⟩
  | cons block rest inductionHypothesis =>
    rw [decryptEach, decryptEach, indistinct.iv]
    apply Parallel.bind (Checked.replace_parallel correspondence block
      (indistinct.otherWidth.trans indistinct.width.symm))
    rintro _ _ ⟨rfl, rfl, fits⟩
    apply Parallel.bind (same.decrypt_parallel block)
    rintro opened _ rfl
    apply Parallel.bind (Checked.replace_parallel correspondence block rfl)
    rintro _ _ ⟨rfl, rfl, _⟩
    apply Parallel.bind (inductionHypothesis
      ((indistinct.withPrevious (fits.trans indistinct.width)).withIv block))
    rintro ⟨last, others⟩ ⟨otherLast, _⟩ ⟨afterAll, rfl⟩
    exact Parallel.pure ⟨afterAll, rfl⟩

section Reflexivity

variable (cipher : KeyedCipher m)

/-- A cipher corresponds to itself in single blocks. -/
theorem KeyedCipher.MatchesBlocks.refl : cipher.MatchesBlocks (coupling m) cipher :=
  ⟨fun _ => Coupled.refl _, fun _ => Coupled.refl _⟩

/-- The leading blocks of indistinct chains, in bulk or one by one. -/
theorem CipherFeedback.leadingBlocks_parallel (indistinct : chain.Indistinct reading other)
    (direction : Direction) (buffer : Bytes) :
    Parallel (coupling m) (SameOutput reading) (leadingBlocks cipher direction chain buffer)
      (leadingBlocks cipher direction other buffer) := by
  rw [leadingBlocks, leadingBlocks, Chain.blockLength, Chain.blockLength, indistinct.iv]
  split
  · exact Parallel.pure ⟨indistinct, rfl⟩
  · apply Parallel.bind (Parallel.refl _)
    rintro count _ rfl
    cases cipher.bulk with
    | some bulk =>
      apply Parallel.bind (Parallel.refl _)
      rintro pieces _ rfl
      apply Parallel.bind (Parallel.refl _)
      rintro chained _ rfl
      exact Parallel.pure ⟨indistinct.withIv _, rfl⟩
    | none =>
      apply Parallel.bind (Parallel.refl _)
      rintro leading _ rfl
      apply Parallel.bind (Parallel.refl _)
      rintro pieces _ rfl
      apply Parallel.bind (Parallel.refl _)
      rintro chained _ rfl
      exact Parallel.pure ⟨indistinct.withIv _, rfl⟩

/-- A cipher matches itself, with bulk routines or without, whatever it does. -/
theorem KeyedCipher.Matches.refl (reading : Chain.Reading) :
    cipher.Matches (coupling m) reading cipher := by
  have blocks := MatchesBlocks.refl cipher
  refine ⟨blocks, ?_, ?_, ?_, ?_⟩
  · intro chain other indistinct _ _ buffer _
    rw [BlockChaining.encryptRun, BlockChaining.encryptRun, Chain.blockLength, Chain.blockLength,
      indistinct.iv]
    split
    · apply Parallel.bind (Parallel.refl _)
      rintro chained _ rfl
      exact Parallel.pure ⟨indistinct.withIv _, rfl⟩
    · apply Parallel.bind (Parallel.refl _)
      rintro pieces _ rfl
      apply Parallel.bind (Parallel.refl _)
      rintro chained _ rfl
      exact Parallel.pure ⟨indistinct.withIv _, rfl⟩
  · intro chain other indistinct _ _ buffer _
    rw [BlockChaining.decryptRun, BlockChaining.decryptRun, Chain.blockLength, Chain.blockLength,
      indistinct.iv]
    split
    · apply Parallel.bind (Parallel.refl _)
      rintro chained _ rfl
      exact Parallel.pure ⟨indistinct.withIv _, rfl⟩
    · apply Parallel.bind (Parallel.refl _)
      rintro pieces _ rfl
      apply Parallel.bind (BlockChaining.decryptEach_parallel blocks indistinct pieces.1)
      rintro ⟨after, outputs⟩ ⟨otherAfter, _⟩ ⟨opened, rfl⟩
      exact Parallel.pure ⟨opened, rfl⟩
  · intro chain other indistinct _ _ buffer
    rw [BlockChaining.mac, BlockChaining.mac, Chain.blockLength, Chain.blockLength, indistinct.iv]
    apply Parallel.bind (Parallel.refl _)
    rintro count _ rfl
    split
    · exact Parallel.pure ⟨indistinct, rfl⟩
    · apply Parallel.bind (Parallel.refl _)
      rintro pieces _ rfl
      cases cipher.bulk with
      | some bulk =>
        apply Parallel.bind (Parallel.refl _)
        rintro iv _ rfl
        exact Parallel.pure ⟨indistinct.withIv _, rfl⟩
      | none =>
        apply Parallel.bind (Parallel.refl _)
        rintro iv _ rfl
        exact Parallel.pure ⟨indistinct.withIv _, rfl⟩
  · intro chain other indistinct _ _ direction buffer
    apply Parallel.bind (CipherFeedback.leadingBlocks_parallel cipher indistinct direction buffer)
    rintro ⟨after, leading, rest⟩ ⟨otherAfter, _⟩ ⟨afterLeading, rfl⟩
    apply Parallel.bind (CipherFeedback.wholeBlock_parallel blocks afterLeading direction rest)
    rintro ⟨final, last, ending⟩ ⟨otherFinal, _⟩ ⟨afterAll, rfl⟩
    exact Parallel.pure ⟨afterAll, rfl⟩

end Reflexivity

end CipherEngine
