import CipherEngine.Proofs.Storage.Alignment
import Mathlib.Algebra.Order.Floor.Div

/-!
# Exact sizes

A stride is the least multiple of the alignment that holds its slot, and a region is as long as
its strides together. Both are numbers without a bound, and the layout finds them in steps of
64 bits, each checked alone. No check turns down sizes whose region fits: the alignment divides
the number of words, so a length can be padded without a carry exactly when its stride is a word.
-/
namespace CipherEngine

/-- The least multiple of the alignment that is not below the length. -/
def strideOf (length alignment : UInt64) : Nat :=
  alignment.toNat * (length.toNat ⌈/⌉ alignment.toNat)

/-- The bytes of two contexts and four blocks, each at its stride. -/
def slotBytes (contextSize blockLength alignment : UInt64) : Nat :=
  2 * strideOf contextSize alignment + 4 * strideOf blockLength alignment

/-- Only a sum past the last word is turned down. -/
theorem checkedAdd_eq_none_iff {left right : UInt64} :
    checkedAdd left right = none ↔ 2 ^ 64 ≤ left.toNat + right.toNat := by
  simp [checkedAdd, UInt64.size]

/-- Only a product past the last word is turned down. -/
theorem checkedMul_eq_none_iff {left right : UInt64} :
    checkedMul left right = none ↔ 2 ^ 64 ≤ left.toNat * right.toNat := by
  simp [checkedMul, UInt64.size]

/-- The larger word is the larger number. -/
theorem toNat_largerOf (left right : UInt64) :
    (largerOf left right).toNat = max left.toNat right.toNat := by
  unfold largerOf
  split
  · next less => exact (Nat.max_eq_right (Nat.le_of_lt (UInt64.lt_iff_toNat_lt.mp less))).symm
  · next most =>
    exact (Nat.max_eq_left (Nat.le_of_not_lt (mt UInt64.lt_iff_toNat_lt.mpr most))).symm

/-- The total of the strides is turned down only when it is past the last word: each part is
below the whole, so a part that is turned down has the whole turned down rightly. -/
theorem slotTotal_eq_none_iff {contextStride blockStride : UInt64} :
    slotTotal contextStride blockStride = none ↔
      2 ^ 64 ≤ 2 * contextStride.toNat + 4 * blockStride.toNat := by
  unfold slotTotal
  cases doubled : checkedMul contextStride 2 with
  | none =>
    have past := checkedMul_eq_none_iff.mp doubled
    simp only [UInt64.reduceToNat] at past
    simp only [Option.bind_none, true_iff]
    omega
  | some contexts =>
    have contextBytes := toNat_checkedMul doubled
    cases quadrupled : checkedMul blockStride 4 with
    | none =>
      have past := checkedMul_eq_none_iff.mp quadrupled
      simp only [UInt64.reduceToNat] at past
      simp only [Option.bind_some, Option.bind_none, true_iff]
      omega
    | some blocks =>
      have blockBytes := toNat_checkedMul quadrupled
      simp only [UInt64.reduceToNat] at contextBytes blockBytes
      rw [Option.bind_some, Option.bind_some, checkedAdd_eq_none_iff, contextBytes, blockBytes,
        Nat.mul_comm _ 2, Nat.mul_comm _ 4]

section

variable {alignment : UInt64}

/-- A power of two is not zero. -/
theorem ne_zero_of_power (power : Layout.isPowerOfTwo alignment = true) : alignment ≠ 0 := by
  rintro rfl
  exact absurd power (by decide)

/-- So it is a positive number. -/
theorem positive_of_power (power : Layout.isPowerOfTwo alignment = true) :
    0 < alignment.toNat :=
  Nat.pos_of_ne_zero fun zero => ne_zero_of_power power (UInt64.toNat_inj.mp zero)

/-- A power of two that is a word divides the number of words. -/
theorem dvd_words (power : Layout.isPowerOfTwo alignment = true) : alignment.toNat ∣ 2 ^ 64 := by
  obtain ⟨exponent, value⟩ := (Layout.isPowerOfTwo_iff alignment).mp power
  have small : 2 ^ exponent < 2 ^ 64 := value ▸ alignment.toNat_lt
  rw [value]
  exact Nat.pow_dvd_pow 2 (Nat.le_of_lt ((Nat.pow_lt_pow_iff_right (by decide)).mp small))

/-- The stride as padding finds it: all but one is added, and the remainder taken off. -/
theorem strideOf_eq (length alignment : UInt64) :
    strideOf length alignment =
      (length.toNat + alignment.toNat - 1) / alignment.toNat * alignment.toNat := by
  rw [strideOf, Nat.ceilDiv_eq_add_pred_div, Nat.mul_comm]

/-- A length that is rounded up is its stride. -/
theorem toNat_alignUp (power : Layout.isPowerOfTwo alignment = true) {length stride : UInt64}
    (rounded : alignUp length alignment = some stride) :
    stride.toNat = strideOf length alignment := by
  obtain ⟨padded, added, rfl⟩ := Option.map_eq_some_iff.mp rounded
  rw [toNat_clear_low power, toNat_checkedAdd added, Layout.toNat_pred (ne_zero_of_power power),
    strideOf_eq, Nat.add_sub_assoc (positive_of_power power)]

/-- Rounding up is turned down only when the stride is past the last word. -/
theorem alignUp_eq_none_iff (power : Layout.isPowerOfTwo alignment = true) {length : UInt64} :
    alignUp length alignment = none ↔ 2 ^ 64 ≤ strideOf length alignment := by
  have positive := positive_of_power power
  -- The words fall into whole strides, so padding passes the last word only with its stride.
  have whole : 2 ^ 64 / alignment.toNat * alignment.toNat = 2 ^ 64 :=
    Nat.div_mul_cancel (dvd_words power)
  have carries : 2 ^ 64 ≤ strideOf length alignment ↔
      2 ^ 64 ≤ length.toNat + alignment.toNat - 1 := by
    rw [strideOf_eq]
    calc 2 ^ 64 ≤ (length.toNat + alignment.toNat - 1) / alignment.toNat * alignment.toNat
        ↔ 2 ^ 64 / alignment.toNat * alignment.toNat ≤
            (length.toNat + alignment.toNat - 1) / alignment.toNat * alignment.toNat := by
          rw [whole]
      _ ↔ 2 ^ 64 / alignment.toNat ≤
            (length.toNat + alignment.toNat - 1) / alignment.toNat :=
          Nat.mul_le_mul_right_iff positive
      _ ↔ 2 ^ 64 / alignment.toNat * alignment.toNat ≤ length.toNat + alignment.toNat - 1 :=
          Nat.le_div_iff_mul_le positive
      _ ↔ 2 ^ 64 ≤ length.toNat + alignment.toNat - 1 := by rw [whole]
  rw [alignUp, Option.map_eq_none_iff, checkedAdd_eq_none_iff,
    Layout.toNat_pred (ne_zero_of_power power), ← Nat.add_sub_assoc positive, carries]

end

namespace Layout

variable {contextSize blockLength alignment : UInt64}

/-- What the layout is for an alignment that is a power of two: a refusal for the size when the
strides together are past the last word, and else the strides with their total. -/
theorem ofSizes_of_power (power : isPowerOfTwo alignment = true) :
    (2 ^ 64 ≤ slotBytes contextSize blockLength alignment ∧
      ofSizes contextSize blockLength alignment = .error .sizeOverflow) ∨
    (slotBytes contextSize blockLength alignment < 2 ^ 64 ∧
      ∃ layout, ofSizes contextSize blockLength alignment = .ok layout ∧
        layout.total.toNat =
          max (slotBytes contextSize blockLength alignment) alignment.toNat) := by
  rw [ofSizes, if_pos power]
  split
  · next past =>
    have contexts := (alignUp_eq_none_iff power).mp past
    exact .inl ⟨by unfold slotBytes; omega, rfl⟩
  · next contextStride contextRounded =>
    have contexts := toNat_alignUp power contextRounded
    split
    · next past =>
      have blocks := (alignUp_eq_none_iff power).mp past
      exact .inl ⟨by unfold slotBytes; omega, rfl⟩
    · next blockStride blockRounded =>
      have blocks := toNat_alignUp power blockRounded
      split
      · next past =>
        have together := slotTotal_eq_none_iff.mp past
        exact .inl ⟨by unfold slotBytes; omega, rfl⟩
      · next slots summed =>
        have together : slots.toNat = slotBytes contextSize blockLength alignment := by
          rw [toNat_slotTotal summed, contexts, blocks, slotBytes]
        exact .inr ⟨together ▸ slots.toNat_lt, _, rfl, by rw [toNat_largerOf, together]⟩

/-- A layout with the strides and the total that its sizes ask for, each as a number without a
bound, and with no word in it or behind its offsets that has wrapped. -/
structure Exact (contextSize blockLength alignment : UInt64) (layout : Layout) : Prop where
  contexts : layout.contextSize = contextSize
  blocks : layout.blockLength = blockLength
  multiples : layout.alignment = alignment
  contextStride : layout.contextStride.toNat = strideOf contextSize alignment
  blockStride : layout.blockStride.toNat = strideOf blockLength alignment
  total : layout.total.toNat = max (slotBytes contextSize blockLength alignment) alignment.toNat
  template : layout.offset .template = layout.contextStride.toNat
  iv : layout.offset .iv = 2 * layout.contextStride.toNat
  /-- The offset of the initialization vector is a product of two words. -/
  product : layout.offset .iv = (layout.contextStride * 2).toNat
  whole : alignment.toNat ∣ layout.total.toNat
  inside : ∀ slot, layout.offset slot + layout.size slot ≤ layout.total.toNat

/-- Every layout that is accepted is exact. -/
theorem exact_of_accepted {layout : Layout}
    (accepted : ofSizes contextSize blockLength alignment = .ok layout) :
    layout.Exact contextSize blockLength alignment := by
  obtain ⟨power, contextSame, blockSame, alignmentSame, contextRounded, blockRounded⟩ :=
    ofSizes_ok accepted
  have contexts := toNat_alignUp power contextRounded
  have blocks := toNat_alignUp power blockRounded
  obtain ⟨small, total⟩ : slotBytes contextSize blockLength alignment < 2 ^ 64 ∧
      layout.total.toNat = max (slotBytes contextSize blockLength alignment) alignment.toNat := by
    obtain ⟨_, refused⟩ | ⟨small, found, same, total⟩ := ofSizes_of_power power
    · cases refused.symm.trans accepted
    · cases same.symm.trans accepted
      exact ⟨small, total⟩
  have doubled : (layout.contextStride * 2).toNat = 2 * layout.contextStride.toNat := by
    rw [UInt64.toNat_mul, show (2 : UInt64).toNat = 2 from rfl, Nat.mul_comm]
    apply Nat.mod_eq_of_lt
    unfold slotBytes at small
    omega
  have strides : alignment.toNat ∣ slotBytes contextSize blockLength alignment :=
    Nat.dvd_add (Nat.dvd_mul_left_of_dvd (Nat.dvd_mul_right _ _) 2)
      (Nat.dvd_mul_left_of_dvd (Nat.dvd_mul_right _ _) 4)
  exact {
    contexts := contextSame
    blocks := blockSame
    multiples := alignmentSame
    contextStride := contexts
    blockStride := blocks
    total := total
    template := rfl
    iv := rfl
    product := doubled.symm
    whole := by
      rw [total]
      rcases Nat.le_total (slotBytes contextSize blockLength alignment) alignment.toNat
        with less | more
      · rw [Nat.max_eq_right less]
      · rw [Nat.max_eq_left more]
        exact strides
    inside := layout.slot_inside }

/-- For all words: the alignment is refused exactly when it is no power of two, and then the
size is refused exactly when the strides together, as a number without a bound, are past the
last word. Every other layout is given, and it is exact.

Proof: in the order of the checks. Padding passes the last word only with its stride, and a part
of the total only with the total, so each check that fails has the whole past the last word. -/
theorem ofSizes_exact (contextSize blockLength alignment : UInt64) :
    (ofSizes contextSize blockLength alignment = .error (.invalidAlignment alignment.toNat) ↔
      ¬ alignment.toNat.isPowerOfTwo) ∧
    (ofSizes contextSize blockLength alignment = .error .sizeOverflow ↔
      alignment.toNat.isPowerOfTwo ∧ 2 ^ 64 ≤ slotBytes contextSize blockLength alignment) ∧
    ((∃ layout, ofSizes contextSize blockLength alignment = .ok layout ∧
        layout.Exact contextSize blockLength alignment) ↔
      alignment.toNat.isPowerOfTwo ∧ slotBytes contextSize blockLength alignment < 2 ^ 64) := by
  rw [← isPowerOfTwo_iff]
  by_cases power : isPowerOfTwo alignment = true
  · obtain ⟨past, refused⟩ | ⟨small, layout, accepted, _⟩ :=
      @ofSizes_of_power contextSize blockLength alignment power
    · simpa [refused, power] using past
    · have known := exact_of_accepted accepted
      simpa [accepted, power, known] using small
  · have refused : ofSizes contextSize blockLength alignment =
        .error (.invalidAlignment alignment.toNat) := by
      rw [ofSizes, if_neg power]
    simp [refused, power]

/-- The last length that fits, and the first that does not. -/
example : slotBytes 0x7FFFFFFFFFFFFFF8 0 8 < 2 ^ 64 ∧
    2 ^ 64 ≤ slotBytes 0x7FFFFFFFFFFFFFF9 0 8 := by
  decide +kernel

end Layout

end CipherEngine
