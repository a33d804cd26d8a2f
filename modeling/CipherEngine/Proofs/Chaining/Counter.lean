import Mathlib.Logic.Function.Iterate
import CipherEngine.Chaining.Counter
import CipherEngine.Proofs.Chaining.Contract

/-!
# Counter mode is one mask

A call masks its buffer with the encryptions of as many counters as the buffer
needs blocks, a short last one included. Which bytes those are depends on the
counter and on the length only, so the same call on the output takes it back.
-/
namespace CipherEngine.Counter

/-- The encryptions of so many counters, from the given one on. -/
def keystream (encipher : Bytes → Bytes) : (counter : Bytes) → (count : Nat) → Bytes
  | _, 0 => []
  | counter, count + 1 => encipher counter ++ keystream encipher (successor counter) count

/-- Counters are blocks. -/
theorem length_iterate (counter : Bytes) (count : Nat) :
    (successor^[count] counter).length = counter.length := by
  induction count generalizing counter with
  | zero => rfl
  | succ count inductionHypothesis =>
    rw [Function.iterate_succ_apply, inductionHypothesis, length_successor]

variable {m : Type → Type} [Monad m] [LawfulMonad m] {cipher : KeyedCipher m}
  {functions : BlockFunctions} {size : Nat}

/-- Chunks of which only the last may be short are masked with the keystream, and every
chunk uses up a counter. -/
theorem maskEach_gives (computes : cipher.Computes functions size) {chain : Chain}
    (sized : chain.counter.length = size) (room : chain.scratch.length = size)
    {chunks : List Bytes} (whole : ∀ chunk ∈ chunks.dropLast, chunk.length = size) :
    ∃ scratch outputs, scratch.length = size ∧
      Gives (maskEach cipher chain chunks)
        ({ chain with counter := successor^[chunks.length] chain.counter, scratch }, outputs) ∧
      outputs.flatten = Bytes.mask chunks.flatten
        (keystream (functions.encrypt cipher.context) chain.counter chunks.length) := by
  induction chunks generalizing chain with
  | nil => exact ⟨chain.scratch, [], room, Gives.pure _, rfl⟩
  | cons chunk rest inductionHypothesis =>
    let pad := functions.encrypt cipher.context chain.counter
    have padWidth : pad.length = size := computes.lengthEncrypt chain.counter sized
    have nextSized : (successor chain.counter).length = size :=
      (length_successor chain.counter).trans sized
    have others : ∀ other ∈ rest.dropLast, other.length = size := by
      intro other member
      cases rest with
      | nil => cases member
      | cons second later => exact whole other (List.mem_cons_of_mem chunk member)
    obtain ⟨scratch, outputs, width, masked, bytes⟩ := @inductionHypothesis
      { chain with counter := successor chain.counter, scratch := pad } nextSized padWidth others
    refine ⟨scratch, Bytes.mask chunk pad :: outputs, width, ?_, ?_⟩
    · rw [maskEach]
      apply Gives.bind (Checked.replace_gives (sized.trans room.symm))
      apply Gives.bind (computes.encrypt_gives sized)
      exact Gives.bind masked (Gives.pure _)
    · rw [List.flatten_cons, bytes, List.flatten_cons, List.length_cons, keystream]
      cases rest with
      | nil => simp [keystream, pad, Bytes.mask]
      | cons second later =>
        have chunkWidth : chunk.length = size := whole chunk List.mem_cons_self
        exact (Bytes.mask_append (chunkWidth.trans padWidth.symm) _ _).symm

/-- A buffer is cut into the blocks that it begins, of which only the last may be short. -/
theorem chunks_gives (positive : 0 < size) (buffer : Bytes) :
    ∃ pieces, Gives (chunks size buffer : Checked m (List Bytes)) pieces ∧
      pieces.length = Bytes.blockCount size buffer.length ∧ pieces.flatten = buffer ∧
      ∀ piece ∈ pieces.dropLast, piece.length = size := by
  have inside := Nat.div_mul_le_self buffer.length size
  have total := Nat.div_add_mod' buffer.length size
  have whole : ∀ block ∈ Bytes.cut size (buffer.length / size) buffer, block.length = size :=
    fun block member => Bytes.length_of_mem_cut inside member
  have left : (buffer.drop (buffer.length / size * size)).length = buffer.length % size := by
    rw [List.length_drop]
    omega
  refine ⟨_, Gives.bind (Checked.wholeBlocks_gives buffer positive) (Gives.pure _), ?_⟩
  simp only [Bytes.blockCount, List.isEmpty_iff_length_eq_zero, left]
  by_cases aligned : buffer.length % size = 0
  · have complete : buffer.length ≤ buffer.length / size * size := by omega
    simp only [if_pos aligned, Bytes.length_cut, Bytes.flatten_cut]
    refine ⟨rfl, List.take_of_length_le complete, ?_⟩
    intro piece member
    exact whole piece (List.dropLast_subset _ member)
  · simp only [if_neg aligned, List.length_append, Bytes.length_cut, List.length_singleton,
      List.flatten_append, Bytes.flatten_cut, List.flatten_singleton, List.take_append_drop,
      List.dropLast_concat]
    exact ⟨trivial, trivial, whole⟩

/-- A call masks its buffer with the keystream, and uses up the counters of that. -/
theorem transform_gives (computes : cipher.Computes functions size) {chain : Chain}
    (fits : chain.Fits size) (buffer : Bytes) :
    let count := Bytes.blockCount size buffer.length
    Gives (transform cipher chain buffer)
      ({ chain with
          counter := successor^[count] chain.counter
          scratch := Bytes.zeros size },
        Bytes.mask buffer (keystream (functions.encrypt cipher.context) chain.counter count)) := by
  intro count
  have positive := fits.positive
  obtain ⟨pieces, given, counted, joined, whole⟩ := chunks_gives (m := m) positive buffer
  obtain ⟨scratch, outputs, width, masked, bytes⟩ :=
    maskEach_gives computes fits.counter fits.scratch whole
  rw [counted] at masked
  rw [joined, counted] at bytes
  have wiped : Bytes.zeros size = Bytes.zeros scratch.length := by rw [width]
  rw [transform, Chain.blockLength, fits.iv, ← bytes, wiped]
  apply Gives.bind given
  exact Gives.bind masked (Gives.pure _)

/-- The call on the output of a call, from the same state, takes it back and leaves the
same state. -/
theorem transform_returns (computes : cipher.Computes functions size) {chain other : Chain}
    (fits : chain.Fits size) (otherFits : other.Fits size)
    (alike : other.counter = chain.counter) (buffer : Bytes) :
    ∃ counter output, counter.length = size ∧ output.length = buffer.length ∧
      Gives (transform cipher chain buffer)
        ({ chain with counter, scratch := Bytes.zeros size }, output) ∧
      Gives (transform cipher other output)
        ({ other with counter, scratch := Bytes.zeros size }, buffer) := by
  have width :=
    (length_iterate chain.counter (Bytes.blockCount size buffer.length)).trans fits.counter
  have back := transform_gives computes otherFits (Bytes.mask buffer
    (keystream (functions.encrypt cipher.context) chain.counter
      (Bytes.blockCount size buffer.length)))
  simp only [Bytes.length_mask, alike, Bytes.mask_mask] at back
  exact ⟨_, _, width, Bytes.length_mask _ _, transform_gives computes fits buffer, back⟩

end CipherEngine.Counter
