import CipherEngine.Proofs.Chaining.BlockChaining
import CipherEngine.Proofs.Chaining.CipherFeedback
import CipherEngine.Proofs.Chaining.Matching

/-!
# Ciphers with and without bulk routines

A cipher whose bulk routines honour their contract matches the same cipher without them.
The two do not leave the same chains: block by block, decryption and cipher feedback
keep previous chaining values that the routines leave alone. But the blocks and the
chaining value are the same, and runs of whole blocks end at a block boundary, where
the previous chaining value is not read.
-/
namespace CipherEngine

variable {m : Type → Type} {cipher : KeyedCipher m} {functions : BlockFunctions} {size : Nat}

/-- The cipher without its bulk routines. -/
def KeyedCipher.withoutBulk (cipher : KeyedCipher m) : KeyedCipher m :=
  { cipher with bulk := none }

/-- The blocks are transformed as before. -/
theorem KeyedCipher.Computes.withoutBulk [Functor m] (computes : cipher.Computes functions size) :
    cipher.withoutBulk.Computes functions size :=
  ⟨computes.encrypts, computes.decrypts, computes.lengthEncrypt, computes.lengthDecrypt,
    fun _ given => nomatch given⟩

namespace CipherFeedback

variable [Monad m] [LawfulMonad m]

/-- Of less than two blocks, the whole block is fed as the functions chain it, if there is
one. -/
theorem wholeBlock_chains (computes : cipher.Computes functions size) (direction : Direction)
    {chain : Chain} (fits : chain.Fits size) {buffer : Bytes} (few : buffer.length < 2 * size) :
    let count := buffer.length / size
    let chained := Bulk.chain (Bulk.cfbStep functions cipher.context direction) chain.iv
      (Bytes.cut size count buffer)
    ∃ previous, previous.length = size ∧
      Gives (wholeBlock cipher direction chain buffer)
        ({ chain with iv := chained.1, previous }, chained.2.flatten,
          buffer.drop (count * size)) := by
  intro count chained
  have blockLength : chain.blockLength = size := fits.iv
  rw [wholeBlock, blockLength]
  by_cases short : buffer.length < size
  · have none : count = 0 := Nat.div_eq_of_lt short
    refine ⟨chain.previous, fits.previous, ?_⟩
    simp only [chained, none, Bytes.cut, Bulk.chain, Nat.zero_mul, List.drop_zero,
      List.flatten_nil]
    rw [if_pos short]
    exact Gives.pure _
  · have one : count = 1 := Nat.div_eq_of_lt_le (by omega) (by omega)
    refine ⟨chain.iv, fits.iv, ?_⟩
    simp only [chained, one, Bytes.cut, Bulk.chain, Nat.one_mul, List.flatten_cons,
      List.flatten_nil, List.append_nil]
    rw [if_neg short]
    apply Gives.bind (Checked.split_gives (by omega))
    exact Gives.bind (computes.advance_gives fits) (Gives.pure _)

/-- With bulk routines or without, all whole blocks of a buffer are fed as the functions
chain them. -/
theorem wholeBlocks_gives (computes : cipher.Computes functions size) (direction : Direction)
    {chain : Chain} (fits : chain.Fits size) (buffer : Bytes) :
    let count := buffer.length / size
    let chained := Bulk.chain (Bulk.cfbStep functions cipher.context direction) chain.iv
      (Bytes.cut size count buffer)
    ∃ previous, previous.length = size ∧
      Gives (wholeBlocks cipher direction chain buffer)
        ({ chain with iv := chained.1, previous }, chained.2.flatten,
          buffer.drop (count * size)) := by
  intro count chained
  have positive := fits.positive
  obtain ⟨first, inside, leading, few⟩ := leadingBlocks_gives computes direction fits buffer
  obtain ⟨ledWidth, _⟩ := Bulk.chain_sized (feedStep_sized computes direction) fits.iv
    fun block member => Bytes.length_of_mem_cut inside member
  have ledFits : Chain.Fits size { chain with iv := _ } :=
    ⟨ledWidth, fits.previous, fits.counter, fits.scratch, fits.carry⟩
  have rest : (buffer.drop (first * size)).length = buffer.length - first * size :=
    List.length_drop
  obtain ⟨previous, width, last⟩ :=
    wholeBlock_chains computes direction ledFits (rest ▸ few)
  have split : count = first + (buffer.drop (first * size)).length / size := by
    rw [rest, Nat.mul_comm, Nat.sub_mul_div, Nat.add_sub_cancel']
    exact (Nat.le_div_iff_mul_le positive).mpr inside
  refine ⟨previous, width, ?_⟩
  simp only [chained, split, Bytes.cut_add, Bulk.chain_append, List.flatten_append, Nat.add_mul,
    ← List.drop_drop]
  apply Gives.bind leading
  exact Gives.bind last (Gives.pure _)

end CipherFeedback

namespace KeyedCipher

variable [Monad m] [LawfulMonad m]

/-- A cipher whose bulk routines honour their contract matches the cipher without them. -/
theorem Matches.withoutBulk (computes : cipher.Computes functions size) (positive : 0 < size)
    (blocks : cipher.MatchesBlocks (valued m m) cipher.withoutBulk) (counts rests : Prop) :
    cipher.Matches (valued m m) ⟨size, counts, rests⟩ cipher.withoutBulk := by
  have plainly := computes.withoutBulk
  have fit {chain other : Chain} (indistinct : chain.Indistinct ⟨size, counts, rests⟩ other)
      (sized : chain.Sized size) (boundary : chain.carry = 0) :
      chain.Fits size ∧ other.Fits size :=
    ⟨sized.fits positive boundary,
      (indistinct.sized sized).fits positive (indistinct.carry.trans boundary)⟩
  refine ⟨blocks, ?_, ?_, ?_, ?_⟩
  · intro chain other indistinct sized boundary buffer aligned
    obtain ⟨fits, otherFits⟩ := fit indistinct sized boundary
    have encrypted := BlockChaining.encryptRun_gives computes positive fits.iv aligned
    have plain := BlockChaining.encryptRun_gives plainly positive otherFits.iv aligned
    rw [indistinct.iv] at plain
    exact Parallel.of_gives encrypted plain ⟨indistinct.withIv _, rfl⟩
  · intro chain other indistinct sized boundary buffer aligned
    obtain ⟨fits, otherFits⟩ := fit indistinct sized boundary
    obtain ⟨previous, width, decrypted⟩ :=
      BlockChaining.decryptRun_gives computes fits aligned
    obtain ⟨otherPrevious, otherWidth, plain⟩ :=
      BlockChaining.decryptRun_gives plainly otherFits aligned
    rw [indistinct.iv] at plain
    exact Parallel.of_gives decrypted plain
      ⟨(indistinct.atBoundary boundary width otherWidth).withIv _, rfl⟩
  · intro chain other indistinct sized boundary buffer
    obtain ⟨fits, otherFits⟩ := fit indistinct sized boundary
    have chained := BlockChaining.mac_gives computes fits buffer
    have plain := BlockChaining.mac_gives plainly otherFits buffer
    rw [indistinct.iv] at plain
    refine Parallel.of_gives chained plain ?_
    split
    · exact ⟨indistinct, rfl⟩
    · exact ⟨indistinct.withIv _, rfl⟩
  · intro chain other indistinct sized boundary direction buffer
    obtain ⟨fits, otherFits⟩ := fit indistinct sized boundary
    obtain ⟨previous, width, fed⟩ :=
      CipherFeedback.wholeBlocks_gives computes direction fits buffer
    obtain ⟨otherPrevious, otherWidth, plain⟩ :=
      CipherFeedback.wholeBlocks_gives plainly direction otherFits buffer
    rw [indistinct.iv] at plain
    exact Parallel.of_gives fed plain
      ⟨(indistinct.atBoundary boundary width otherWidth).withIv _, rfl⟩

end KeyedCipher

end CipherEngine
