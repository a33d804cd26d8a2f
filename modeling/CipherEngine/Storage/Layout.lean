import CipherEngine.Refusal
import CipherEngine.Text.Record

/-!
# Slot layout

One handle keeps six buffers back to back in one region: two contexts and four
blocks, each rounded up to the alignment. Sizes are 64-bit words, and every sum
and product is checked, so a size that does not fit is refused and never wraps.

A layout carries the three facts that its slots rely on: each buffer fits its
stride, and the strides together fit the region.
-/
namespace CipherEngine

/-- A sum, unless it needs more than 64 bits. -/
def checkedAdd (left right : UInt64) : Option UInt64 :=
  if left.toNat + right.toNat < UInt64.size then some (left + right) else none

/-- A product, unless it needs more than 64 bits. -/
def checkedMul (left right : UInt64) : Option UInt64 :=
  if left.toNat * right.toNat < UInt64.size then some (left * right) else none

/-- A checked sum that fits is the sum. -/
theorem toNat_checkedAdd {left right sum : UInt64} (fits : checkedAdd left right = some sum) :
    sum.toNat = left.toNat + right.toNat := by
  unfold checkedAdd at fits
  split at fits
  · next bound =>
    cases fits
    rw [UInt64.toNat_add, Nat.mod_eq_of_lt bound]
  · cases fits

/-- And a checked product that fits is the product. -/
theorem toNat_checkedMul {left right product : UInt64}
    (fits : checkedMul left right = some product) :
    product.toNat = left.toNat * right.toNat := by
  unfold checkedMul at fits
  split at fits
  · next bound =>
    cases fits
    rw [UInt64.toNat_mul, Nat.mod_eq_of_lt bound]
  · cases fits

/-- Clearing bits and keeping them apart add up to the word. -/
theorem toNat_clear_add_keep (word bits : UInt64) :
    (word &&& ~~~bits).toNat + (word &&& bits).toNat = word.toNat := by
  have disjoint :
      (word.toBitVec &&& ~~~bits.toBitVec) &&& (word.toBitVec &&& bits.toBitVec) = 0#64 := by
    ext index bound
    simp
    intro _ cleared _
    simp [cleared]
  have joined : (word.toBitVec &&& ~~~bits.toBitVec) ||| (word.toBitVec &&& bits.toBitVec) =
      word.toBitVec := by
    ext index bound
    simp
    cases word.toBitVec[index] <;> cases bits.toBitVec[index] <;> rfl
  have sum := BitVec.toNat_add_of_and_eq_zero disjoint
  rw [BitVec.add_eq_or_of_and_eq_zero _ _ disjoint, joined] at sum
  exact sum.symm

/-- Rounds a length up to a multiple of a power of two: adds all but one, then
clears the low bits. -/
def alignUp (length alignment : UInt64) : Option UInt64 :=
  (checkedAdd length (alignment - 1)).map fun padded => padded &&& ~~~(alignment - 1)

/-- Rounding up never shortens. -/
theorem le_alignUp {length alignment stride : UInt64}
    (rounded : alignUp length alignment = some stride) : length.toNat ≤ stride.toNat := by
  unfold alignUp at rounded
  cases added : checkedAdd length (alignment - 1) with
  | none => simp [added] at rounded
  | some padded =>
    simp only [added, Option.map_some, Option.some.injEq] at rounded
    subst rounded
    have sum := toNat_checkedAdd added
    have parts := toNat_clear_add_keep padded (alignment - 1)
    have kept : (padded &&& (alignment - 1)).toNat ≤ (alignment - 1).toNat := by
      rw [UInt64.toNat_and]
      exact Nat.and_le_right
    omega

/-- The bytes of two context strides and four block strides. -/
def slotTotal (contextStride blockStride : UInt64) : Option UInt64 :=
  (checkedMul contextStride 2).bind fun contexts =>
    (checkedMul blockStride 4).bind fun blocks => checkedAdd contexts blocks

/-- A total that fits is two contexts and four blocks, without wrapping. -/
theorem toNat_slotTotal {contextStride blockStride total : UInt64}
    (fits : slotTotal contextStride blockStride = some total) :
    total.toNat = 2 * contextStride.toNat + 4 * blockStride.toNat := by
  unfold slotTotal at fits
  cases doubled : checkedMul contextStride 2 with
  | none => simp [doubled] at fits
  | some contexts =>
    cases quadrupled : checkedMul blockStride 4 with
    | none => simp [doubled, quadrupled] at fits
    | some blocks =>
      simp only [doubled, quadrupled, Option.bind_some] at fits
      have sum := toNat_checkedAdd fits
      have contextBytes := toNat_checkedMul doubled
      have blockBytes := toNat_checkedMul quadrupled
      simp only [UInt64.reduceToNat] at contextBytes blockBytes
      omega

/-- The larger of two words. -/
def largerOf (left right : UInt64) : UInt64 :=
  if left < right then right else left

/-- The larger of two is no less than the first. -/
theorem le_largerOf (left right : UInt64) : left.toNat ≤ (largerOf left right).toNat := by
  unfold largerOf
  split
  · next less => exact Nat.le_of_lt (UInt64.lt_iff_toNat_lt.mp less)
  · exact Nat.le_refl _

/-- Sizes of the slots of one handle, and of the region that holds them. -/
structure Layout where
  /-- Bytes of each context slot. -/
  contextSize : UInt64
  /-- Bytes of each block slot. -/
  blockLength : UInt64
  /-- The power of two at whose multiples the slots begin. -/
  alignment : UInt64
  /-- Bytes from one context slot to the next. -/
  contextStride : UInt64
  /-- Bytes from one block slot to the next. -/
  blockStride : UInt64
  /-- Bytes of the region, padding included. -/
  total : UInt64
  contextFits : contextSize.toNat ≤ contextStride.toNat
  blockFits : blockLength.toNat ≤ blockStride.toNat
  slotsFit : 2 * contextStride.toNat + 4 * blockStride.toNat ≤ total.toNat

namespace Layout

/-- A word with exactly one bit set. -/
def isPowerOfTwo (word : UInt64) : Bool :=
  word ≠ 0 && word &&& (word - 1) = 0

/-- The layout for contexts and blocks of the given sizes. A region is never
empty: it has at least as many bytes as the alignment. -/
def ofSizes (contextSize blockLength alignment : UInt64) : Except StorageRefusal Layout :=
  if isPowerOfTwo alignment then
    match contextRounded : alignUp contextSize alignment with
    | none => .error .sizeOverflow
    | some contextStride =>
      match blockRounded : alignUp blockLength alignment with
      | none => .error .sizeOverflow
      | some blockStride =>
        match summed : slotTotal contextStride blockStride with
        | none => .error .sizeOverflow
        | some slots =>
          .ok {
            contextSize, blockLength, alignment, contextStride, blockStride
            total := largerOf slots alignment
            contextFits := le_alignUp contextRounded
            blockFits := le_alignUp blockRounded
            slotsFit := toNat_slotTotal summed ▸ le_largerOf slots alignment }
  else .error (.invalidAlignment alignment.toNat)

/-- What is known of an accepted layout: it is for the sizes that were asked for, and its
strides are these sizes rounded up. -/
theorem ofSizes_ok {contextSize blockLength alignment : UInt64} {layout : Layout}
    (accepted : ofSizes contextSize blockLength alignment = .ok layout) :
    isPowerOfTwo alignment = true ∧ layout.contextSize = contextSize ∧
      layout.blockLength = blockLength ∧ layout.alignment = alignment ∧
      alignUp contextSize alignment = some layout.contextStride ∧
      alignUp blockLength alignment = some layout.blockStride := by
  rw [ofSizes] at accepted
  split at accepted
  · next power =>
    split at accepted
    · cases accepted
    · next contextStride contextRounded =>
      split at accepted
      · cases accepted
      · next blockStride blockRounded =>
        split at accepted
        · cases accepted
        · cases accepted
          exact ⟨power, rfl, rfl, rfl, contextRounded, blockRounded⟩
  · cases accepted

/-- The layout on one line. -/
def describe (layout : Layout) : String :=
  Text.record "ArenaLayout"
    [⟨"context_size", toString layout.contextSize⟩, ⟨"block_len", toString layout.blockLength⟩,
      ⟨"align", toString layout.alignment⟩, ⟨"context_stride", toString layout.contextStride⟩,
      ⟨"block_stride", toString layout.blockStride⟩, ⟨"total", toString layout.total⟩]

end Layout

end CipherEngine
