import Mathlib.Logic.Function.Iterate
import CipherEngine.Proofs.Chaining.Keystream

/-!
# Places in the keystream of output feedback

The keystream of output feedback is the chaining value, encrypted again and again.
So it is one sequence of bytes, of which a chain knows its place: how many bytes are
behind it, counted from the front of the chaining value that the sequence began with.
What is carried is the rest of the block in which the place lies. The machine takes
the byte at the place and goes on by one, whatever byte it masks.
-/
namespace CipherEngine.OutputFeedback

open Keystream

/-- The keystream byte at a place. The chaining value is the first block. -/
def padAt (encipher : Bytes → Bytes) (iv : Bytes) (position : Nat) : UInt8 :=
  (encipher^[position / iv.length] iv).getD (position % iv.length) 0

/-- The chain is at the place: its chaining value is the block that the place lies in, or ends,
and the bytes from the place to the end of the block are carried. -/
def At (encipher : Bytes → Bytes) (iv : Bytes) (position : Nat) (chain : Chain) : Prop :=
  ∃ blocks, chain.iv = encipher^[blocks] iv ∧ position + chain.carry = (blocks + 1) * iv.length

/-- Behind the first block there are the bytes of the blocks that were encrypted. -/
theorem padAt_of_encrypted {iv : Bytes} (filled : 0 < iv.length) (encipher : Bytes → Bytes)
    (position : Nat) :
    padAt encipher iv (iv.length + position) =
      (encipher^[position / iv.length + 1] iv).getD (position % iv.length) 0 := by
  rw [padAt, Nat.add_div_left _ filled, Nat.add_mod_left]

/-- In the first block there is what the chaining value holds. -/
theorem padAt_of_first {iv : Bytes} {position : Nat} (inside : position < iv.length)
    (encipher : Bytes → Bytes) : padAt encipher iv position = iv.getD position 0 := by
  rw [padAt, Nat.div_eq_of_lt inside, Nat.mod_eq_of_lt inside, Function.iterate_zero_apply]

/-- A chain is at the place that its carry leaves open. -/
theorem At.start {chain : Chain} (encipher : Bytes → Bytes)
    (short : chain.carry ≤ chain.iv.length) :
    At encipher chain.iv (chain.iv.length - chain.carry) chain := by
  refine ⟨0, rfl, ?_⟩
  omega

/-- Chains that are alike are at the same place. -/
theorem At.congr {encipher : Bytes → Bytes} {iv : Bytes} {position : Nat} {chain other : Chain}
    (here : At encipher iv position chain) (alike : Alike chain other) :
    At encipher iv position other := by
  obtain ⟨blocks, block, rest⟩ := here
  exact ⟨blocks, alike.iv.symm.trans block, alike.carry ▸ rest⟩

variable {encipher : Bytes → Bytes} {iv : Bytes}

/-- Where the carry is used up, the next block begins at the place. -/
theorem At.refill {size position : Nat} {chain : Chain} (sized : iv.length = size)
    (fits : chain.Fits size) (here : At encipher iv position chain) :
    At encipher iv position (refill encipher chain) := by
  obtain ⟨blocks, block, rest⟩ := here
  have chainWidth := fits.iv
  rw [Keystream.refill]
  split
  · next boundary =>
    refine ⟨blocks + 1, ?_, ?_⟩
    · rw [Function.iterate_succ_apply', ← block]
    · rw [Chain.blockLength, Nat.succ_mul (blocks + 1), ← rest, boundary, chainWidth, sized]
      rfl
  · exact ⟨blocks, block, rest⟩

/-- A byte is masked with the keystream byte at the place of the chain, which goes on by one. -/
theorem At.passByte {size position : Nat} {chain : Chain} (sized : iv.length = size)
    (width : ∀ block : Bytes, block.length = size → (encipher block).length = size)
    (fits : chain.Fits size) (here : At encipher iv position chain) (byte : UInt8) :
    (passByte encipher .keystream chain byte).2 = byte ^^^ padAt encipher iv position ∧
      At encipher iv (position + 1) (passByte encipher .keystream chain byte).1 := by
  obtain ⟨blocks, block, rest⟩ := here.refill sized fits
  obtain ⟨readyWidth, carried, short⟩ := refill_ready encipher width fits
  have positive := fits.positive
  simp only [Keystream.passByte]
  generalize Keystream.refill encipher chain = ready at *
  have readyLength : ready.blockLength = size := readyWidth
  rw [sized, Nat.succ_mul] at rest
  rw [readyLength]
  have whole : position = size * blocks + (size - ready.carry) := by
    rw [Nat.mul_comm]
    omega
  have before : size - ready.carry < size := Nat.sub_lt positive carried
  have pad : padAt encipher iv position = ready.iv.getD (size - ready.carry) 0 := by
    rw [padAt, sized, whole, Nat.mul_add_div positive, Nat.mul_add_mod, Nat.div_eq_of_lt before,
      Nat.mod_eq_of_lt before, Nat.add_zero, ← block]
  have kept : ready.iv.set (size - ready.carry) (ready.iv.getD (size - ready.carry) 0) =
      ready.iv := by
    have inside : size - ready.carry < ready.iv.length := readyWidth ▸ before
    rw [List.getD_eq_getElem?_getD, List.getElem?_eq_getElem inside, Option.getD_some,
      List.set_getElem_self]
  constructor
  · rw [pad]
  · refine ⟨blocks, kept.trans block, ?_⟩
    rw [sized, Nat.succ_mul, ← rest]
    simp only
    omega

/-- A buffer is masked byte by byte with the keystream from the place on. -/
theorem At.pass {size position : Nat} {chain : Chain} (sized : iv.length = size)
    (width : ∀ block : Bytes, block.length = size → (encipher block).length = size)
    (fits : chain.Fits size) (here : At encipher iv position chain) (buffer : Bytes) :
    (∀ place, place < buffer.length →
        (passBytes encipher .keystream chain buffer).2.getD place 0 =
          buffer.getD place 0 ^^^ padAt encipher iv (position + place)) ∧
      At encipher iv (position + buffer.length) (passBytes encipher .keystream chain buffer).1 := by
  induction buffer generalizing chain position with
  | nil => exact ⟨fun place inside => absurd inside (Nat.not_lt_zero place), here⟩
  | cons byte rest inductionHypothesis =>
    obtain ⟨first, next⟩ := here.passByte sized width fits byte
    obtain ⟨others, last⟩ :=
      inductionHypothesis (passByte_fits encipher .keystream byte width fits) next
    constructor
    · intro place inside
      cases place with
      | zero => exact first
      | succ place =>
        have later := others place (Nat.lt_of_succ_lt_succ inside)
        rw [Nat.add_assoc, Nat.add_comm 1 place] at later
        exact later
    · rw [Nat.add_assoc, Nat.add_comm 1 rest.length] at last
      exact last

end CipherEngine.OutputFeedback
