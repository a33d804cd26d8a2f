import CipherEngine.Storage.Arena

/-!
# Alignment

The bits below the one bit of a power of two are the remainder by it, so clearing them
leaves the largest multiple that is not above. Strides are rounded up in this way, and
every slot begins at a multiple of the alignment.
-/
namespace CipherEngine

namespace Layout

/-- A word that has a bit counts one more than the word before it. -/
theorem toNat_pred {word : UInt64} (filled : word ≠ 0) : (word - 1).toNat = word.toNat - 1 := by
  apply UInt64.toNat_sub_of_le
  rw [UInt64.le_iff_toNat_le]
  apply Nat.one_le_iff_ne_zero.mpr
  exact fun none => filled (UInt64.toNat_inj.mp none)

/-- The words with exactly one bit are the powers of two. -/
theorem isPowerOfTwo_iff (word : UInt64) :
    isPowerOfTwo word = true ↔ word.toNat.isPowerOfTwo := by
  by_cases empty : word = 0
  · subst empty
    simp [isPowerOfTwo, Nat.not_isPowerOfTwo_zero]
  have filled : word.toNat ≠ 0 := fun none => empty (UInt64.toNat_inj.mp none)
  have bits : word &&& (word - 1) = 0 ↔ word.toNat &&& (word.toNat - 1) = 0 := by
    rw [← UInt64.toNat_inj, UInt64.toNat_and, toNat_pred empty]
    rfl
  rw [isPowerOfTwo, Bool.and_eq_true, decide_eq_true_iff, decide_eq_true_iff, bits,
    and_iff_right empty]
  exact Nat.and_sub_one_eq_zero_iff_isPowerOfTwo filled

end Layout

variable {alignment : UInt64}

/-- The bits below a power of two are the remainder. -/
theorem toNat_keep_low (power : Layout.isPowerOfTwo alignment = true) (word : UInt64) :
    (word &&& (alignment - 1)).toNat = word.toNat % alignment.toNat := by
  have filled : alignment ≠ 0 := by
    rintro rfl
    exact absurd power (by decide)
  obtain ⟨exponent, value⟩ := (Layout.isPowerOfTwo_iff alignment).mp power
  rw [UInt64.toNat_and, Layout.toNat_pred filled, value, Nat.and_two_pow_sub_one_eq_mod]

/-- Without them, the largest multiple that is not above is left. -/
theorem toNat_clear_low (power : Layout.isPowerOfTwo alignment = true) (word : UInt64) :
    (word &&& ~~~(alignment - 1)).toNat = word.toNat / alignment.toNat * alignment.toNat := by
  have parts := toNat_clear_add_keep word (alignment - 1)
  have whole := Nat.div_add_mod' word.toNat alignment.toNat
  rw [toNat_keep_low power] at parts
  exact Nat.add_right_cancel (parts.trans whole.symm)

/-- A length that is rounded up is a multiple of the alignment. -/
theorem dvd_alignUp (power : Layout.isPowerOfTwo alignment = true) {length stride : UInt64}
    (rounded : alignUp length alignment = some stride) : alignment.toNat ∣ stride.toNat := by
  obtain ⟨sum, _, rfl⟩ := Option.map_eq_some_iff.mp rounded
  rw [toNat_clear_low power]
  exact Nat.dvd_mul_left _ _

namespace Layout

/-- Every slot of an accepted layout begins at a multiple of the alignment. -/
theorem dvd_offset {contextSize blockLength alignment : UInt64} {layout : Layout}
    (accepted : ofSizes contextSize blockLength alignment = .ok layout) (slot : Slot) :
    alignment.toNat ∣ layout.offset slot := by
  obtain ⟨power, _, _, _, contextRounded, blockRounded⟩ := ofSizes_ok accepted
  have context := dvd_alignUp power contextRounded
  have contexts : alignment.toNat ∣ 2 * layout.contextStride.toNat :=
    Nat.dvd_mul_left_of_dvd context 2
  have block := dvd_alignUp power blockRounded
  have blocks (count : Nat) : alignment.toNat ∣ count * layout.blockStride.toNat :=
    Nat.dvd_mul_left_of_dvd block count
  cases slot with
  | live => exact Nat.dvd_zero _
  | template => exact context
  | iv => exact contexts
  | previous => exact Nat.dvd_add contexts block
  | counter => exact Nat.dvd_add contexts (blocks 2)
  | scratch => exact Nat.dvd_add contexts (blocks 3)

end Layout

end CipherEngine
