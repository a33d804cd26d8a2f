import CipherEngine.Proofs.Aes.RoundKeys
import CipherEngine.Proofs.Aes.Steps
import CipherEngine.Proofs.Chaining.Contract

/-!
# The cipher and its inverse

Over a numbered family of round keys, the plain cipher is a sum with the first key, full rounds,
and a round that does not mix; the plain inverse cipher undoes these in the reverse order with
the same keys. What runs is neither: the last round is a full one whose mixing is undone, and
decryption goes through equivalent inverse rounds, in which substitution and the shift of rows
come before the key, with keys that were mixed back. Both are shown to compute the plain
functions under the schedule of a key, and the plain functions to undo each other, whatever the
keys are.
-/
namespace CipherEngine.Aes

namespace Block

section Definitions

variable (keys : Nat → Block)

/-- A full round of encryption. -/
def sealRound (block : Block) (round : Nat) : Block :=
  block.substitute.shiftRows.mixColumns.add (keys round)

/-- A round of the plain inverse cipher, which takes back what is substituted, then the key,
and then the mixing. -/
def openRound (block : Block) (round : Nat) : Block :=
  (block.unshiftRows.unsubstitute.add (keys round)).unmixColumns

/-- The plain cipher. -/
def sealed (rounds : Nat) (block : Block) : Block :=
  ((List.range' 1 (rounds - 1)).foldl (sealRound keys)
    (block.add (keys 0))).substitute.shiftRows.add (keys rounds)

/-- The plain inverse cipher. -/
def opened (rounds : Nat) (block : Block) : Block :=
  ((List.range' 1 (rounds - 1)).reverse.foldl (openRound keys)
    (block.add (keys rounds))).unshiftRows.unsubstitute.add (keys 0)

end Definitions

variable {keys : Nat → Block}

/-- Inverse rounds in the reverse order lead from behind the substitution of the last round back
to before that of the first. -/
theorem openRounds_sealRounds (rounds : List Nat) (block : Block) :
    (rounds.reverse.foldl (openRound keys)
        (rounds.foldl (sealRound keys) block).substitute.shiftRows).unshiftRows.unsubstitute =
      block := by
  induction rounds generalizing block with
  | nil => simp
  | cons round rest inductionHypothesis =>
    have later := inductionHypothesis (sealRound keys block round)
    -- The first round is undone last, once the others have led back to its result.
    rw [List.reverse_cons, List.foldl_append, List.foldl_cons, List.foldl_cons, List.foldl_nil,
      openRound, later]
    simp [sealRound]

/-- And rounds undo inverse rounds in the reverse order. -/
theorem sealRounds_openRounds (rounds : List Nat) (block : Block) :
    (rounds.foldl (sealRound keys) (rounds.reverse.foldl (openRound keys)
      block).unshiftRows.unsubstitute).substitute.shiftRows = block := by
  induction rounds generalizing block with
  | nil => simp
  | cons round rest inductionHypothesis =>
    have first : sealRound keys
        ((openRound keys (rest.reverse.foldl (openRound keys) block)
          round).unshiftRows.unsubstitute) round =
        (rest.reverse.foldl (openRound keys) block).unshiftRows.unsubstitute := by
      simp [sealRound, openRound]
    rw [List.reverse_cons, List.foldl_append, List.foldl_cons, List.foldl_cons, List.foldl_nil,
      first, inductionHypothesis]

/-- What the middle rounds seal they open again. -/
@[simp] theorem opened_sealed (rounds : Nat) (block : Block) :
    opened keys rounds (sealed keys rounds block) = block := by
  rw [opened, sealed, add_add_cancel, openRounds_sealRounds, add_add_cancel]

/-- And what they open they seal. -/
@[simp] theorem sealed_opened (rounds : Nat) (block : Block) :
    sealed keys rounds (opened keys rounds block) = block := by
  rw [sealed, opened, add_add_cancel, sealRounds_openRounds, add_add_cancel]

end Block

/-- Rounds over the keys from a place on: full rounds, and one that does not mix. -/
theorem encryptRounds_eq {keys : Nat → Block} {bytes : Bytes} (start count : Nat)
    (read : ∀ round ≤ start + count, Block.read (bytes.drop (16 * round)) = keys round)
    (block : Block) :
    encryptRounds count (bytes.drop (16 * start)) block =
      ((List.range' start count).foldl (Block.sealRound keys) block).substitute.shiftRows.add
        (keys (start + count)) := by
  induction count generalizing start block with
  | zero => rw [encryptRounds, Block.round_unmixColumns, read start (Nat.le_refl _)]; rfl
  | succ count inductionHypothesis =>
    have next : start + 1 + count = start + (count + 1) := Nat.succ_add_eq_add_succ start count
    have later := inductionHypothesis (start + 1) (next ▸ read)
    rw [encryptRounds, read start (Nat.le_add_right _ _), List.drop_drop, ← Nat.mul_succ, later,
      next, List.range'_succ, List.foldl_cons]
    rfl

/-- Equivalent inverse rounds over the keys from a place on, and one that does not mix back. -/
theorem decryptRounds_eq {keys : Nat → Block} {bytes : Bytes} (start count : Nat)
    (read : ∀ round ≤ start + count, Block.read (bytes.drop (16 * round)) = keys round)
    (block : Block) :
    decryptRounds count (bytes.drop (16 * start)) block =
      ((List.range' start count).foldl (fun block round => block.inverseRound (keys round))
        block).unshiftRows.unsubstitute.add (keys (start + count)) := by
  induction count generalizing start block with
  | zero => rw [decryptRounds, Block.inverseRound_mixColumns, read start (Nat.le_refl _)]; rfl
  | succ count inductionHypothesis =>
    have next : start + 1 + count = start + (count + 1) := Nat.succ_add_eq_add_succ start count
    have later := inductionHypothesis (start + 1) (next ▸ read)
    rw [decryptRounds, read start (Nat.le_add_right _ _), List.drop_drop, ← Nat.mul_succ, later,
      next, List.range'_succ, List.foldl_cons]

/-- Counting the middle rounds from the end is going through them in the reverse order. -/
theorem reverse_rounds (rounds : Nat) :
    (List.range' 1 (rounds - 1)).reverse =
      (List.range' 1 (rounds - 1)).map fun round => rounds - round := by
  rw [List.reverse_range', List.range'_eq_map_range, List.map_map]
  apply List.map_congr_left
  intro round _
  simp only [Function.comp_apply]
  omega

/-- Equivalent inverse rounds with the keys that were mixed back are plain inverse rounds with
the keys of encryption. -/
theorem inverseRounds_eq (variant : Variant) (key : Bytes) (block : Block) :
    (List.range' 1 (variant.rounds - 1)).foldl
        (fun block round => block.inverseRound (inverseRoundKey variant key round)) block =
      (List.range' 1 (variant.rounds - 1)).reverse.foldl
        (Block.openRound (roundKey variant key)) block := by
  rw [reverse_rounds, List.foldl_map]
  apply List.foldl_ext
  intro block round member
  have middle : ¬(round = 0 ∨ round = variant.rounds) := by
    rw [List.mem_range'_1] at member
    omega
  rw [inverseRoundKey, if_neg middle, Block.inverseRound_unmixColumns, Block.openRound]

/-- One round, the last one, comes after those in the middle. -/
theorem Variant.one_add_middle (variant : Variant) : 1 + (variant.rounds - 1) = variant.rounds := by
  rw [Variant.rounds]
  omega

/-- Under the schedule of a key, a block is encrypted by the plain cipher. -/
theorem encryptBlock_scheduleOf (variant : Variant) (key block : Bytes) :
    encryptBlock variant (scheduleOf variant key) block =
      (Block.sealed (roundKey variant key) variant.rounds (Block.read block)).toBytes := by
  have last := variant.one_add_middle
  have first := read_scheduleOf key (Nat.zero_le variant.rounds)
  have rounds := encryptRounds_eq 1 (variant.rounds - 1)
    (fun round inside => read_scheduleOf key (last ▸ inside))
  rw [Nat.mul_zero, List.drop_zero] at first
  rw [encryptBlock, rounds, first, last, Block.sealed]

/-- And decrypted by the plain inverse cipher. -/
theorem decryptBlock_scheduleOf (variant : Variant) (key block : Bytes) :
    decryptBlock variant (scheduleOf variant key) block =
      (Block.opened (roundKey variant key) variant.rounds (Block.read block)).toBytes := by
  have last := variant.one_add_middle
  have first := read_scheduleOf_inverse key (Nat.zero_le variant.rounds)
  have rounds := decryptRounds_eq 1 (variant.rounds - 1)
    (fun round inside => read_scheduleOf_inverse key (last ▸ inside))
  have ends : inverseRoundKey variant key 0 = roundKey variant key variant.rounds ∧
      inverseRoundKey variant key variant.rounds = roundKey variant key 0 := by
    simp [inverseRoundKey]
  rw [Nat.mul_zero, List.drop_zero, ends.1] at first
  rw [decryptBlock, rounds, first, last, ends.2, inverseRounds_eq, Block.opened]

/-- A key of the right length is accepted, and under the context that it leaves, whatever the
context was before, encryption and decryption of a block undo each other.

Proof: under a schedule both are the plain functions over the same round keys, and those undo
each other over any keys. So nothing has to be known of the keys but that they are read where they
were written. -/
theorem blocks_invert (variant : Variant) {context key : Bytes}
    (size : context.length = variant.contextSize) (width : key.length = variant.keyLength) :
    ∃ keyed, setKey variant context key = ⟨.ok (), keyed⟩ ∧
      keyed.length = variant.contextSize ∧
      (blockFunctions variant).MutuallyInverse keyed blockLength := by
  refine ⟨scheduleOf variant key, setKey_eq size width, length_scheduleOf variant key, ?_, ?_⟩
  · intro block sixteen
    show decryptBlock variant _ (encryptBlock variant _ block) = block
    rw [encryptBlock_scheduleOf, decryptBlock_scheduleOf, Block.read_toBytes_self,
      Block.opened_sealed, Block.toBytes_read sixteen]
  · intro block sixteen
    show encryptBlock variant _ (decryptBlock variant _ block) = block
    rw [decryptBlock_scheduleOf, encryptBlock_scheduleOf, Block.read_toBytes_self,
      Block.sealed_opened, Block.toBytes_read sixteen]

/-- A key of six words over a context of zeros. -/
theorem blocks_invert_specimen :
    let key : Bytes := (List.range 24).map UInt8.ofNat
    let keying := setKey .aes192 (Bytes.zeros 416) key
    keying.verdict = .ok () ∧
      (blockFunctions .aes192).MutuallyInverse keying.context blockLength := by
  intro key keying
  have size : (Bytes.zeros 416).length = Variant.aes192.contextSize := Bytes.length_zeros 416
  have width : key.length = Variant.aes192.keyLength := by decide
  obtain ⟨keyed, set, -, inverse⟩ := blocks_invert .aes192 size width
  have same : keying = ⟨.ok (), keyed⟩ := set
  rw [same]
  exact ⟨rfl, inverse⟩

end CipherEngine.Aes
