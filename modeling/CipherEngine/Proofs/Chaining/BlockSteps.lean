import CipherEngine.Chaining.Bulk

/-!
# Steps over blocks, and back

The modes of whole blocks take one block after the other and hand a chaining
value on. A step that puts out whole blocks can be undone block by block: a
second step that takes each output block back, and hands on the same chaining
value, takes the whole output back. So encryption and decryption meet again in
the same chaining value, whatever was sent.
-/
namespace CipherEngine

namespace Bulk

variable {size : Nat} {step undo : (iv block : Bytes) → Bytes × Bytes}

/-- The step takes a block to a block, and hands a block on. -/
def Sized (size : Nat) (step : (iv block : Bytes) → Bytes × Bytes) : Prop :=
  ∀ iv block, iv.length = size → block.length = size →
    (step iv block).1.length = size ∧ (step iv block).2.length = size

/-- The second step takes back what the first puts out, and hands on the same. -/
def Undoes (size : Nat) (undo step : (iv block : Bytes) → Bytes × Bytes) : Prop :=
  ∀ iv block, iv.length = size → block.length = size →
    undo iv (step iv block).2 = ((step iv block).1, block)

/-- Each block that goes in comes out. -/
@[simp] theorem length_chain (step : (iv block : Bytes) → Bytes × Bytes) (iv : Bytes)
    (blocks : List Bytes) : (chain step iv blocks).2.length = blocks.length := by
  induction blocks generalizing iv with
  | nil => rfl
  | cons block rest inductionHypothesis => simp [chain, inductionHypothesis]

/-- Blocks in two pieces are chained as the blocks in one. -/
theorem chain_append (step : (iv block : Bytes) → Bytes × Bytes) (iv : Bytes)
    (first second : List Bytes) :
    chain step iv (first ++ second) =
      ((chain step (chain step iv first).1 second).1,
        (chain step iv first).2 ++ (chain step (chain step iv first).1 second).2) := by
  induction first generalizing iv with
  | nil => rfl
  | cons block rest inductionHypothesis => simp [chain, inductionHypothesis]

/-- Blocks are taken to blocks. -/
theorem chain_sized (sized : Sized size step) {iv : Bytes} (width : iv.length = size)
    {blocks : List Bytes} (whole : ∀ block ∈ blocks, block.length = size) :
    (chain step iv blocks).1.length = size ∧
      ∀ block ∈ (chain step iv blocks).2, block.length = size := by
  induction blocks generalizing iv with
  | nil => exact ⟨width, by simp [chain]⟩
  | cons block rest inductionHypothesis =>
    obtain ⟨nextWidth, outputWidth⟩ := sized iv block width (whole block List.mem_cons_self)
    obtain ⟨last, others⟩ := inductionHypothesis nextWidth fun other member =>
      whole other (List.mem_cons_of_mem block member)
    refine ⟨last, ?_⟩
    intro other member
    rcases List.mem_cons.mp member with rfl | later
    · exact outputWidth
    · exact others other later

/-- What was chained is taken back, block by block. -/
theorem chain_undoes (undoes : Undoes size undo step) (sized : Sized size step) {iv : Bytes}
    (width : iv.length = size) {blocks : List Bytes}
    (whole : ∀ block ∈ blocks, block.length = size) :
    chain undo iv (chain step iv blocks).2 = ((chain step iv blocks).1, blocks) := by
  induction blocks generalizing iv with
  | nil => rfl
  | cons block rest inductionHypothesis =>
    have blockWidth : block.length = size := whole block List.mem_cons_self
    have later := inductionHypothesis (sized iv block width blockWidth).1 fun other member =>
      whole other (List.mem_cons_of_mem block member)
    simp only [chain, undoes iv block width blockWidth, later]

/-- A buffer of whole blocks is put out as whole blocks. -/
theorem runBlocks_sized (sized : Sized size step) (positive : 0 < size) {iv : Bytes}
    (width : iv.length = size) {buffer : Bytes} (aligned : size ∣ buffer.length) :
    (runBlocks size step iv buffer).1.length = size ∧
      (runBlocks size step iv buffer).2.length = buffer.length := by
  obtain ⟨count, total⟩ := aligned
  rw [Nat.mul_comm] at total
  have whole : ∀ block ∈ Bytes.cut size count buffer, block.length = size :=
    fun block member => Bytes.length_of_mem_cut (Nat.le_of_eq total.symm) member
  obtain ⟨last, outputs⟩ := chain_sized sized width whole
  rw [runBlocks_whole step iv positive total]
  refine ⟨last, ?_⟩
  rw [Bytes.length_flatten outputs, length_chain, Bytes.length_cut, total]

/-- What comes out of a run over whole blocks goes into another run block by block. -/
theorem runBlocks_after (second : (iv block : Bytes) → Bytes × Bytes) (sized : Sized size step)
    (positive : 0 < size) {iv : Bytes} (width : iv.length = size) (other : Bytes) {count : Nat}
    {buffer : Bytes} (total : buffer.length = count * size) :
    runBlocks size second other (runBlocks size step iv buffer).2 =
      ((chain second other (chain step iv (Bytes.cut size count buffer)).2).1,
        (chain second other (chain step iv (Bytes.cut size count buffer)).2).2.flatten) := by
  have whole : ∀ block ∈ Bytes.cut size count buffer, block.length = size :=
    fun block member => Bytes.length_of_mem_cut (Nat.le_of_eq total.symm) member
  obtain ⟨_, outputs⟩ := chain_sized sized width whole
  have joined : (chain step iv (Bytes.cut size count buffer)).2.length = count := by
    rw [length_chain, Bytes.length_cut]
  have outputWidth := Bytes.length_flatten outputs
  have again := Bytes.cut_flatten outputs
  rw [joined] at outputWidth again
  rw [runBlocks_whole step iv positive total, runBlocks_whole second other positive outputWidth,
    again]

/-- What was run over a buffer of whole blocks is taken back. -/
theorem runBlocks_undoes (undoes : Undoes size undo step) (sized : Sized size step)
    (positive : 0 < size) {iv : Bytes} (width : iv.length = size) {buffer : Bytes}
    (aligned : size ∣ buffer.length) :
    runBlocks size undo iv (runBlocks size step iv buffer).2 =
      ((runBlocks size step iv buffer).1, buffer) := by
  obtain ⟨count, total⟩ := aligned
  rw [Nat.mul_comm] at total
  have whole : ∀ block ∈ Bytes.cut size count buffer, block.length = size :=
    fun block member => Bytes.length_of_mem_cut (Nat.le_of_eq total.symm) member
  rw [runBlocks_after undo sized positive width iv total, chain_undoes undoes sized width whole,
    runBlocks_whole step iv positive total, Bytes.flatten_cut, ← total, List.take_length]

/-- Whole blocks in two pieces are run as the blocks in one. -/
theorem runBlocks_append (step : (iv block : Bytes) → Bytes × Bytes) (positive : 0 < size)
    (iv : Bytes) {first second : Bytes} (aligned : size ∣ first.length)
    (alignedAfter : size ∣ second.length) :
    runBlocks size step iv (first ++ second) =
      ((runBlocks size step (runBlocks size step iv first).1 second).1,
        (runBlocks size step iv first).2 ++
          (runBlocks size step (runBlocks size step iv first).1 second).2) := by
  obtain ⟨count, width⟩ := aligned
  obtain ⟨more, moreWidth⟩ := alignedAfter
  rw [Nat.mul_comm] at width moreWidth
  have total : (first ++ second).length = (count + more) * size := by
    rw [List.length_append, width, moreWidth, Nat.add_mul]
  rw [runBlocks_whole step iv positive total, runBlocks_whole step iv positive width,
    runBlocks_whole step _ positive moreWidth, Bytes.cut_add,
    Bytes.cut_append (Nat.le_of_eq width.symm), List.drop_left' width, chain_append,
    List.flatten_append]

/-- A single block is run by one step. -/
theorem runBlocks_block (step : (iv block : Bytes) → Bytes × Bytes) (positive : 0 < size)
    (iv : Bytes) {block : Bytes} (width : block.length = size) :
    runBlocks size step iv block = step iv block := by
  rw [runBlocks_whole step iv positive (width.trans (Nat.one_mul size).symm), Bytes.cut, Bytes.cut,
    List.take_of_length_le (Nat.le_of_eq width)]
  simp [chain]

end Bulk

end CipherEngine
