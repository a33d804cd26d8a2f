import CipherEngine.Proofs.Aes.Expansion
import CipherEngine.Proofs.Aes.Inversion

/-!
# The cipher is the standard's

The plain cipher over the round keys of a schedule takes the steps of the standard one by one, and
so does the plain inverse cipher. Since encryption and decryption compute these two under the
context that a key leaves, they are the cipher of the standard and its straightforward inverse.
-/
namespace CipherEngine.Aes

/-- Steps that agree on states for the rounds of a list agree when they are taken in turn. -/
theorem Block.state_foldl {step : Block → Nat → Block}
    {standard : Standard.State → Nat → Standard.State} {rounds : List Nat}
    (agree : ∀ block, ∀ round ∈ rounds, (step block round).state = standard block.state round)
    (block : Block) : (rounds.foldl step block).state = rounds.foldl standard block.state := by
  induction rounds generalizing block with
  | nil => rfl
  | cons round rest inductionHypothesis =>
    have later := inductionHypothesis fun block later member =>
      agree block later (List.mem_cons_of_mem round member)
    rw [List.foldl_cons, List.foldl_cons, later, agree block round List.mem_cons_self]

section Rounds

variable {variant : Variant} {key block : Bytes}

/-- The plain cipher over the keys of a schedule is the cipher of the standard. -/
theorem sealed_standard (width : key.length = variant.keyLength) (sixteen : block.length = 16) :
    (Block.sealed (roundKey variant key) variant.rounds (Block.read block)).toBytes =
      Standard.cipher variant.keyWords key block := by
  have middle : ∀ block, ∀ round ∈ List.range' 1 (variant.rounds - 1),
      (Block.sealRound (roundKey variant key) block round).state =
        Standard.cipherRound variant.keyWords key block.state round := by
    intro block round member
    have inside : round ≤ variant.rounds := by
      rw [List.mem_range'_1] at member
      omega
    rw [Block.sealRound, Block.state_add, Block.state_mixColumns, Block.state_shiftRows,
      Block.state_substitute, state_roundKey width inside, Standard.cipherRound]
  rw [← Block.toBytes_state, Block.sealed, Block.state_add, Block.state_shiftRows,
    Block.state_substitute, Block.state_foldl middle, Block.state_add, Block.state_read sixteen,
    state_roundKey width (Nat.zero_le _), state_roundKey width (Nat.le_refl _)]
  rfl

/-- And the plain inverse cipher is the straightforward inverse cipher of the standard. -/
theorem opened_standard (width : key.length = variant.keyLength) (sixteen : block.length = 16) :
    (Block.opened (roundKey variant key) variant.rounds (Block.read block)).toBytes =
      Standard.invCipher variant.keyWords key block := by
  have middle : ∀ block, ∀ round ∈ (List.range' 1 (variant.rounds - 1)).reverse,
      (Block.openRound (roundKey variant key) block round).state =
        Standard.invCipherRound variant.keyWords key block.state round := by
    intro block round member
    have inside : round ≤ variant.rounds := by
      rw [List.mem_reverse, List.mem_range'_1] at member
      omega
    rw [Block.openRound, Block.state_unmixColumns, Block.state_add, Block.state_unsubstitute,
      Block.state_unshiftRows, state_roundKey width inside, Standard.invCipherRound]
  rw [← Block.toBytes_state, Block.opened, Block.state_add, Block.state_unsubstitute,
    Block.state_unshiftRows, Block.state_foldl middle, Block.state_add, Block.state_read sixteen,
    state_roundKey width (Nat.zero_le _), state_roundKey width (Nat.le_refl _)]
  rfl

end Rounds

/-- A key of the right length is accepted, and under the context that it leaves, whatever the
context was before, a block is encrypted as the standard has it and decrypted by the
straightforward inverse cipher of the standard, which uses the expanded key as it is.

Proof: under a schedule a block goes through the plain functions, though what runs makes a full
last round and undoes its mixing, and decrypts with keys that were mixed back. The plain functions
take the steps of the standard one for one, over round keys that are those of the standard. -/
theorem conforms (variant : Variant) {context key : Bytes}
    (size : context.length = variant.contextSize) (width : key.length = variant.keyLength) :
    ∃ keyed, setKey variant context key = ⟨.ok (), keyed⟩ ∧
      ∀ block : Bytes, block.length = blockLength →
        (blockFunctions variant).encrypt keyed block =
            Standard.cipher variant.keyWords key block ∧
          (blockFunctions variant).decrypt keyed block =
            Standard.invCipher variant.keyWords key block := by
  refine ⟨scheduleOf variant key, setKey_eq size width, ?_⟩
  intro block sixteen
  constructor
  · rw [← sealed_standard width sixteen, ← encryptBlock_scheduleOf]
    rfl
  · rw [← opened_standard width sixteen, ← decryptBlock_scheduleOf]
    rfl

/-- A known block under a known key of four words, over a context of zeros. -/
theorem conforms_specimen :
    let key : Bytes := (List.range 16).map UInt8.ofNat
    let block : Bytes := (List.range 16).map fun number => UInt8.ofNat (17 * number)
    let known : Bytes := [0x69, 0xc4, 0xe0, 0xd8, 0x6a, 0x7b, 0x04, 0x30,
      0xd8, 0xcd, 0xb7, 0x80, 0x70, 0xb4, 0xc5, 0x5a]
    Standard.cipher 4 key block = known ∧ Standard.invCipher 4 key known = block := by
  intro key block known
  have size : (Bytes.zeros 352).length = Variant.aes128.contextSize := Bytes.length_zeros 352
  have width : key.length = Variant.aes128.keyLength := by decide
  obtain ⟨keyed, set, agree⟩ := conforms .aes128 size width
  have context : (setKey .aes128 (Bytes.zeros 352) key).context = keyed := by rw [set]
  have encrypted : encryptBlock .aes128 (setKey .aes128 (Bytes.zeros 352) key).context block =
      known := by
    decide +kernel
  have decrypted : decryptBlock .aes128 (setKey .aes128 (Bytes.zeros 352) key).context known =
      block := by
    decide +kernel
  rw [context] at encrypted decrypted
  exact ⟨(agree block (by decide)).1.symm.trans encrypted,
    (agree known (by decide)).2.symm.trans decrypted⟩

end CipherEngine.Aes
