import CipherEngine.Chaining.Counter
import Mathlib.Algebra.Ring.Nat

/-!
# Digits in base 256

Which number a string of digits writes, how many digits it takes, and that the
counter of counter mode goes up by one up to the count of all counters.
-/
namespace CipherEngine

namespace Bytes

/-- Digits that were written are read back, as far as they were kept. -/
theorem littleEndian_ofLittleEndian (length value : Nat) :
    littleEndian (ofLittleEndian length value) = value % 256 ^ length := by
  induction length generalizing value with
  | zero => simp [ofLittleEndian, littleEndian, Nat.mod_one]
  | succ length inductionHypothesis =>
    simp only [ofLittleEndian, littleEndian, inductionHypothesis]
    rw [Nat.pow_succ', Nat.mod_mul]
    simp

/-- So many digits write no larger number. -/
theorem littleEndian_lt (bytes : Bytes) : littleEndian bytes < 256 ^ bytes.length := by
  induction bytes with
  | nil => simp [littleEndian]
  | cons byte rest inductionHypothesis =>
    have digit := byte.toNat_lt
    simp only [littleEndian, List.length_cons, Nat.pow_succ]
    omega

/-- Digits that are read are written again. -/
theorem ofLittleEndian_littleEndian (bytes : Bytes) :
    ofLittleEndian bytes.length (littleEndian bytes) = bytes := by
  induction bytes with
  | nil => rfl
  | cons byte rest inductionHypothesis =>
    have digit := byte.toNat_lt
    have low : UInt8.ofNat (byte.toNat + 256 * littleEndian rest) = byte := by
      apply UInt8.toNat_inj.mp
      rw [UInt8.toNat_ofNat']
      omega
    have high : (byte.toNat + 256 * littleEndian rest) / 256 = littleEndian rest := by omega
    rw [List.length_cons, littleEndian, ofLittleEndian, low, high, inductionHypothesis]

/-- The `length` low digits of a number, most significant first. -/
def ofBigEndian (length value : Nat) : Bytes := (ofLittleEndian length value).reverse

/-- A number is written in exactly the bytes that are asked for. -/
@[simp] theorem length_ofBigEndian (length value : Nat) :
    (ofBigEndian length value).length = length := by
  simp [ofBigEndian]

/-- A number that is written and read again is what fits into the bytes. -/
theorem bigEndian_ofBigEndian (length value : Nat) :
    bigEndian (ofBigEndian length value) = value % 256 ^ length := by
  rw [bigEndian_eq_littleEndian_reverse, ofBigEndian, List.reverse_reverse,
    littleEndian_ofLittleEndian]

/-- And bytes that are read and written again are what they were. -/
theorem ofBigEndian_bigEndian (bytes : Bytes) :
    ofBigEndian bytes.length (bigEndian bytes) = bytes := by
  have written := ofLittleEndian_littleEndian bytes.reverse
  rw [List.length_reverse] at written
  rw [ofBigEndian, bigEndian_eq_littleEndian_reverse, written, List.reverse_reverse]

end Bytes

namespace Counter

/-- The successor of the digits writes the number plus one, modulo the count of all numbers
of so many digits. -/
theorem littleEndian_successorLittle (bytes : Bytes) :
    Bytes.littleEndian (successorLittle bytes) =
      (Bytes.littleEndian bytes + 1) % 256 ^ bytes.length := by
  induction bytes with
  | nil => rfl
  | cons byte rest inductionHypothesis =>
    have digit := byte.toNat_lt
    simp only [successorLittle]
    split
    · next wraps =>
      have full : byte.toNat = 255 := by
        have zero := congrArg UInt8.toNat wraps
        simp at zero
        omega
      have carried : 255 + 256 * Bytes.littleEndian rest + 1 =
          256 * (Bytes.littleEndian rest + 1) := by omega
      simp only [Bytes.littleEndian, inductionHypothesis, List.length_cons, full, carried]
      rw [Nat.pow_succ', Nat.mul_mod_mul_left]
      simp
    · next stays =>
      have notFull : byte.toNat ≠ 255 := fun full =>
        stays (UInt8.toNat_inj.mp (by simp [full]))
      have bound := Bytes.littleEndian_lt rest
      simp only [Bytes.littleEndian, List.length_cons, UInt8.toNat_add, UInt8.toNat_one]
      rw [Nat.mod_eq_of_lt (by omega), Nat.mod_eq_of_lt]
      · omega
      · rw [Nat.pow_succ']
        omega

/-- The successor is the number plus one, modulo the count of all counters. -/
theorem bigEndian_successor (counter : Bytes) :
    Bytes.bigEndian (successor counter) =
      (Bytes.bigEndian counter + 1) % 256 ^ counter.length := by
  simp [Bytes.bigEndian_eq_littleEndian_reverse, successor, littleEndian_successorLittle]

end Counter

end CipherEngine
