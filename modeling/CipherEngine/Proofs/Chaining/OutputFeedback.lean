import CipherEngine.Chaining.OutputFeedback
import CipherEngine.Proofs.Chaining.Keystream

/-!
# Output feedback is byte by byte

The keystream does not depend on the message, so a used byte stays in its place.
Every call returns the bytes of the byte-by-byte machine, and leaves exactly its
chain: the previous chaining value is kept at every block.
-/
namespace CipherEngine.OutputFeedback

open Keystream

variable {m : Type → Type} [Monad m] [LawfulMonad m]
  {cipher : KeyedCipher m} {functions : BlockFunctions} {size : Nat}

/-- Within the carry, a call is the byte-by-byte machine and cannot stop. -/
theorem fromCarry_gives (encipher : Bytes → Bytes) {chain : Chain} {buffer : Bytes}
    (fits : chain.Fits size) (short : buffer.length ≤ chain.carry) :
    Gives (fromCarry chain buffer : Checked m (Chain × Bytes))
      (passBytes encipher .keystream chain buffer) := by
  have width := fits.iv
  have carried := fits.carry
  have start : chain.carry ≤ chain.blockLength := by
    unfold Chain.blockLength
    omega
  have inside : chain.blockLength - chain.carry ≤ chain.iv.length := Nat.sub_le _ _
  have pad : chain.carry = (chain.iv.drop (chain.blockLength - chain.carry)).length := by
    unfold Chain.blockLength at start ⊢
    rw [List.length_drop]
    omega
  rw [pass_carried encipher _ chain (chain.iv.take (chain.blockLength - chain.carry)) _ buffer
    (List.take_append_drop _ _).symm pad (pad ▸ short), ← pad, leftOver_keystream,
    List.take_append_drop]
  rw [fromCarry]
  apply Gives.bind (Checked.subtract_gives start)
  apply Gives.bind (Checked.split_gives inside)
  exact Gives.bind (Checked.subtract_gives short) (Gives.pure _)

/-- From a block boundary, up to a block is masked with the encrypted chaining value. -/
theorem pass_block {encipher : Bytes → Bytes} {chain : Chain} {buffer : Bytes}
    (width : ∀ block : Bytes, block.length = size → (encipher block).length = size)
    (fits : chain.Fits size) (boundary : chain.carry = 0) (filled : buffer ≠ [])
    (short : buffer.length ≤ size) :
    passBytes encipher .keystream chain buffer =
      ({ chain with previous := chain.iv, iv := encipher chain.iv, carry := size - buffer.length },
        Bytes.mask buffer (encipher chain.iv)) := by
  have padWidth := width chain.iv fits.iv
  rw [pass_fresh encipher .keystream chain boundary (padWidth.trans fits.iv.symm) filled
    (fits.iv.symm ▸ short), leftOver_keystream, fits.iv]

/-- From a block boundary, blocks are masked byte by byte. -/
theorem maskEach_gives (computes : cipher.Computes functions size) {chain : Chain}
    (fits : chain.Fits size) (boundary : chain.carry = 0) {blocks : List Bytes}
    (whole : ∀ block ∈ blocks, block.length = size) :
    let passed := passBytes (functions.encrypt cipher.context) .keystream chain blocks.flatten
    ∃ outputs, Gives (maskEach cipher chain blocks) (passed.1, outputs) ∧
      outputs.flatten = passed.2 ∧ passed.1.carry = 0 := by
  induction blocks generalizing chain with
  | nil => exact ⟨[], Gives.pure _, rfl, boundary⟩
  | cons block rest inductionHypothesis =>
    have blockWidth : block.length = size := whole block List.mem_cons_self
    have filled : block ≠ [] := by
      intro empty
      have positive := fits.carry
      rw [empty, List.length_nil] at blockWidth
      omega
    have first := pass_block computes.lengthEncrypt fits boundary filled (Nat.le_of_eq blockWidth)
    rw [blockWidth, Nat.sub_self] at first
    have nextFits := pass_fits (functions.encrypt cipher.context) .keystream block
      computes.lengthEncrypt fits
    rw [first] at nextFits
    obtain ⟨outputs, given, bytes, ends⟩ := inductionHypothesis nextFits rfl
      fun other member => whole other (List.mem_cons_of_mem block member)
    rw [List.flatten_cons, pass_append, first]
    refine ⟨Bytes.mask block (functions.encrypt cipher.context chain.iv) :: outputs, ?_, ?_, ends⟩
    rotate_left
    · rw [List.flatten_cons, bytes]
    have empty : chain = { chain with carry := 0 } := by rw [← boundary]
    have advanced := computes.advance_gives fits
    rw [empty] at advanced
    rw [maskEach, empty]
    apply Gives.bind advanced
    exact Gives.bind given (Gives.pure _)

/-- From a block boundary, the last bytes pass byte by byte. -/
theorem partialBlock_gives (computes : cipher.Computes functions size) {chain : Chain}
    (fits : chain.Fits size) (boundary : chain.carry = 0) {buffer : Bytes}
    (short : buffer.length < size) :
    Gives (partialBlock cipher chain buffer)
      (passBytes (functions.encrypt cipher.context) .keystream chain buffer) := by
  rw [partialBlock]
  cases buffer with
  | nil => exact Gives.pure _
  | cons byte rest =>
    have padWidth := computes.lengthEncrypt chain.iv fits.iv
    rw [pass_block computes.lengthEncrypt fits boundary (List.cons_ne_nil byte rest)
      (Nat.le_of_lt short)]
    apply Gives.bind (computes.advance_gives fits)
    have advanced : (byte :: rest).length ≤
        (functions.encrypt cipher.context chain.iv).length := by omega
    apply Gives.bind (Checked.subtract_gives advanced)
    rw [← padWidth]
    exact Gives.pure _

/-- From a block boundary, a buffer passes byte by byte. -/
theorem fromBoundary_gives (computes : cipher.Computes functions size) {chain : Chain}
    (fits : chain.Fits size) (boundary : chain.carry = 0) (buffer : Bytes) :
    Gives (fromBoundary cipher chain buffer)
      (passBytes (functions.encrypt cipher.context) .keystream chain buffer) := by
  have positive := fits.positive
  have inside := Nat.div_mul_le_self buffer.length size
  have few := Nat.mod_lt buffer.length positive
  have total := Nat.div_add_mod' buffer.length size
  have whole : ∀ block ∈ Bytes.cut size (buffer.length / size) buffer, block.length = size :=
    fun block member => Bytes.length_of_mem_cut inside member
  obtain ⟨outputs, masked, bytes, ends⟩ := maskEach_gives computes fits boundary whole
  rw [Bytes.flatten_cut] at masked bytes ends
  have middleFits := pass_fits (functions.encrypt cipher.context) .keystream
    (buffer.take (buffer.length / size * size)) computes.lengthEncrypt fits
  have short : (buffer.drop (buffer.length / size * size)).length < size := by
    rw [List.length_drop]
    omega
  have ending := partialBlock_gives computes middleFits ends short
  have cut := pass_append (functions.encrypt cipher.context) .keystream chain
    (buffer.take (buffer.length / size * size)) (buffer.drop (buffer.length / size * size))
  rw [List.take_append_drop] at cut
  have blocks : Gives (Checked.wholeBlocks chain.blockLength buffer : Checked m _)
      (Bytes.cut size (buffer.length / size) buffer,
        buffer.drop (buffer.length / size * size)) := by
    rw [Chain.blockLength, fits.iv]
    exact Checked.wholeBlocks_gives buffer positive
  rw [fromBoundary, cut, ← bytes]
  apply Gives.bind blocks
  apply Gives.bind masked
  exact Gives.bind ending (Gives.pure _)

/-- Every call in output feedback is the byte-by-byte machine, and cannot stop. -/
theorem transform_gives (computes : cipher.Computes functions size) {chain : Chain}
    (fits : chain.Fits size) (buffer : Bytes) :
    Gives (transform cipher chain buffer)
      (passBytes (functions.encrypt cipher.context) .keystream chain buffer) := by
  let encipher := functions.encrypt cipher.context
  rw [transform]
  by_cases short : buffer.length ≤ chain.carry
  · rw [if_pos short]
    exact fromCarry_gives encipher fits short
  · rw [if_neg short]
    have inside : chain.carry ≤ buffer.length := by omega
    have headWidth : (buffer.take chain.carry).length = chain.carry := by
      rw [List.length_take]
      omega
    have headShort : (buffer.take chain.carry).length ≤ chain.carry := Nat.le_of_eq headWidth
    have headFits := pass_fits encipher .keystream (buffer.take chain.carry)
      computes.lengthEncrypt fits
    have boundary :
        (passBytes encipher .keystream chain (buffer.take chain.carry)).1.carry = 0 := by
      rw [carry_pass _ _ _ headShort, headWidth, Nat.sub_self]
    have given := fromBoundary_gives computes headFits boundary (buffer.drop chain.carry)
    have whole := pass_append encipher .keystream chain (buffer.take chain.carry)
      (buffer.drop chain.carry)
    rw [List.take_append_drop] at whole
    rw [whole]
    apply Gives.bind (Checked.split_gives inside)
    apply Gives.bind (fromCarry_gives encipher fits headShort)
    exact Gives.bind given (Gives.pure _)

end CipherEngine.OutputFeedback
