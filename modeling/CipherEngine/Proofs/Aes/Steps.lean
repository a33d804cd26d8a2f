import CipherEngine.Aes.Round
import Mathlib.Data.FinEnum

/-!
# The steps of a round, and back

Addition of keys, substitution, the shift of rows and the mixing of columns can each be
undone, from both sides. Doubling is additive, so mixing is; and mixing four times changes
nothing, since twice over it only adds to a byte four times the sum of that byte and the one
two places on. Mixing back is mixing three times. Both go past a rotation of the column, so
their laws are shown for the first byte.

From this follow the two laws that the cipher is built on. Mixing back what a full round with
the zero key has mixed leaves a round that does not mix. And an equivalent inverse round whose
key was mixed back is a round of the plain inverse cipher, which adds the key and then mixes
the sum back.
-/
namespace CipherEngine.Aes

/-- A byte that is added twice is gone. -/
theorem xor_xor_cancel (first second : UInt8) : first ^^^ (first ^^^ second) = second := by
  rw [← UInt8.xor_assoc, UInt8.xor_self, UInt8.zero_xor]

/-- Sums of bytes may be taken in any order. -/
theorem xor_left_comm (first second third : UInt8) :
    first ^^^ (second ^^^ third) = second ^^^ (first ^^^ third) := by
  rw [← UInt8.xor_assoc, UInt8.xor_comm first, UInt8.xor_assoc]

/-- What holds of every number below 256 holds of every byte. -/
theorem forall_byte {property : UInt8 → Prop}
    (checked : ∀ number < 256, property (UInt8.ofNat number)) (byte : UInt8) : property byte := by
  have here := checked byte.toNat byte.toNat_lt
  rwa [UInt8.ofNat_toNat] at here

/-- Doubling is the product with two of a polynomial over two elements: bits that meet at the
top are reduced together or not at all. -/
theorem double_xor (left right : UInt8) :
    double (left ^^^ right) = double left ^^^ double right := by
  have tops : (left ^^^ right) &&& 0x80 = (left &&& 0x80) ^^^ (right &&& 0x80) := by
    apply UInt8.toBitVec_inj.mp
    ext place inside
    simp [Bool.and_xor_distrib_right]
  have top : ∀ byte : UInt8, byte &&& 0x80 = 0 ∨ byte &&& 0x80 = 0x80 :=
    forall_byte (by decide +kernel)
  rw [double, double, double, UInt8.shiftLeft_xor, tops]
  rcases top left with low | high <;> rcases top right with otherLow | otherHigh <;>
    simp [*, UInt8.xor_assoc, UInt8.xor_comm, xor_left_comm]

/-- The substitution box undoes the inverse table: it has room for no second image. -/
theorem substitute_unsubstitute (byte : UInt8) : substitute (unsubstitute byte) = byte := by
  have undone : Function.LeftInverse unsubstitute substitute := unsubstitute_substitute
  obtain ⟨source, rfl⟩ := Finite.surjective_of_injective undone.injective byte
  rw [undone source]

namespace Word

/-- A word that is added twice is gone. -/
@[simp] theorem add_add_cancel (word key : Word) : (word.add key).add key = word := by
  simp only [add, UInt8.xor_assoc, UInt8.xor_self, UInt8.xor_zero]

/-- Adding the word of zeros changes nothing. -/
@[simp] theorem add_zero (word : Word) : word.add zero = word := by
  simp only [add, zero, UInt8.xor_zero]

/-- Mixing is additive. -/
theorem mix_add (left right : Word) : (left.add right).mix = left.mix.add right.mix := by
  simp only [mix, add, triple, double_xor, mk.injEq]
  refine ⟨?_, ?_, ?_, ?_⟩ <;>
    simp only [UInt8.xor_assoc, UInt8.xor_comm, xor_left_comm]

/-- Mixing goes past a rotation. -/
theorem mix_rotate (word : Word) : word.rotate.mix = word.mix.rotate := by
  simp only [mix, rotate, mk.injEq]
  refine ⟨?_, ?_, ?_, ?_⟩ <;> simp only [UInt8.xor_assoc, UInt8.xor_comm, xor_left_comm]

/-- So does mixing back. -/
theorem unmix_rotate (word : Word) : word.rotate.unmix = word.unmix.rotate := by
  simp only [unmix, rotate, mk.injEq]
  refine ⟨?_, ?_, ?_, ?_⟩ <;> simp only [UInt8.xor_assoc, UInt8.xor_comm, xor_left_comm]

/-- Two functions that go past a rotation are the same if their first bytes are: any byte can be
rotated to the front. -/
theorem eq_of_first (left right : Word → Word)
    (leftRotates : ∀ word, left word.rotate = (left word).rotate)
    (rightRotates : ∀ word, right word.rotate = (right word).rotate)
    (first : ∀ word, (left word).b0 = (right word).b0) (word : Word) : left word = right word := by
  have second (word : Word) : (left word).b1 = (right word).b1 := by
    have rotated := first word.rotate
    rwa [leftRotates, rightRotates] at rotated
  have third : (left word).b2 = (right word).b2 := by
    have rotated := second word.rotate
    rwa [leftRotates, rightRotates] at rotated
  have fourth : (left word).b3 = (right word).b3 := by
    have rotated := second word.rotate.rotate
    rwa [leftRotates, rightRotates, leftRotates, rightRotates] at rotated
  calc left word
      = ⟨(left word).b0, (left word).b1, (left word).b2, (left word).b3⟩ := rfl
    _ = right word := by rw [first word, second word, third, fourth]

/-- Four times the sum of each byte and the one two places on. -/
def spread (word : Word) : Word :=
  let even := double (double (word.b0 ^^^ word.b2))
  let odd := double (double (word.b1 ^^^ word.b3))
  ⟨even, odd, even, odd⟩

/-- This is what mixing twice adds to a word. -/
theorem mix_mix (word : Word) : word.mix.mix = word.add word.spread := by
  refine eq_of_first (fun word => word.mix.mix) (fun word => word.add word.spread) ?_ ?_ ?_ word
  · intro word
    rw [mix_rotate, mix_rotate]
  · intro word
    simp only [add, spread, rotate, UInt8.xor_comm word.b0 word.b2]
  · intro word
    simp only [mix, add, spread, triple, double_xor]
    simp only [UInt8.xor_assoc, UInt8.xor_comm, xor_left_comm, xor_xor_cancel]

/-- The sums of bytes two places apart stay when the same is added to both. -/
theorem spread_mix_mix (word : Word) : word.mix.mix.spread = word.spread := by
  have same (first second added : UInt8) :
      (first ^^^ added) ^^^ (second ^^^ added) = first ^^^ second := by
    rw [UInt8.xor_assoc, xor_left_comm added, UInt8.xor_self, UInt8.xor_zero]
  rw [mix_mix]
  simp only [spread, add, same]

/-- Mixing four times changes nothing: the same is added twice. -/
theorem mix_four (word : Word) : word.mix.mix.mix.mix = word := by
  rw [mix_mix word.mix.mix, spread_mix_mix, mix_mix, add_add_cancel]

/-- Mixing back is mixing three times. -/
theorem unmix_eq_mix (word : Word) : word.unmix = word.mix.mix.mix := by
  refine eq_of_first unmix (fun word => word.mix.mix.mix) unmix_rotate ?_ ?_ word
  · intro word
    rw [mix_rotate, mix_rotate, mix_rotate]
  · intro word
    rw [mix_mix]
    simp only [mix, add, spread, unmix, triple, double_xor, times9, times11, times13, times14]
    simp only [UInt8.xor_assoc, UInt8.xor_comm, xor_left_comm, xor_xor_cancel]

/-- Unmixing undoes mixing. The two matrices of the columns are inverse to each other. -/
@[simp] theorem unmix_mix (word : Word) : word.mix.unmix = word := by
  rw [unmix_eq_mix, mix_four]

/-- And mixing undoes unmixing. -/
@[simp] theorem mix_unmix (word : Word) : word.unmix.mix = word := by
  rw [unmix_eq_mix, mix_four]

/-- Mixing back is additive. -/
theorem unmix_add (left right : Word) : (left.add right).unmix = left.unmix.add right.unmix := by
  simp only [unmix_eq_mix, mix_add]

end Word

namespace Block

/-- A key that is added twice is gone. -/
@[simp] theorem add_add_cancel (block key : Block) : (block.add key).add key = block := by
  simp only [add, Word.add_add_cancel]

/-- Adding the block of zeros changes nothing. -/
@[simp] theorem add_zero (block : Block) : block.add zero = block := by
  simp only [add, zero, Word.add_zero]

/-- A substitution is taken back byte by byte. -/
@[simp] theorem unsubstitute_substitute (block : Block) :
    block.substitute.unsubstitute = block := by
  simp only [substitute, unsubstitute, map, Word.map, Aes.unsubstitute_substitute]

/-- And so is one that is taken back first. -/
@[simp] theorem substitute_unsubstitute (block : Block) :
    block.unsubstitute.substitute = block := by
  simp only [substitute, unsubstitute, map, Word.map, Aes.substitute_unsubstitute]

/-- Rows that are shifted to the left are shifted back to the right. -/
@[simp] theorem unshiftRows_shiftRows (block : Block) : block.shiftRows.unshiftRows = block := rfl

/-- And the other way round. -/
@[simp] theorem shiftRows_unshiftRows (block : Block) : block.unshiftRows.shiftRows = block := rfl

/-- Mixed columns are unmixed one by one. -/
@[simp] theorem unmixColumns_mixColumns (block : Block) :
    block.mixColumns.unmixColumns = block := by
  simp only [mixColumns, unmixColumns, map, Word.unmix_mix]

/-- And unmixed ones are mixed again. -/
@[simp] theorem mixColumns_unmixColumns (block : Block) :
    block.unmixColumns.mixColumns = block := by
  simp only [mixColumns, unmixColumns, map, Word.mix_unmix]

/-- Mixing back is additive. -/
theorem unmixColumns_add (block key : Block) :
    (block.add key).unmixColumns = block.unmixColumns.add key.unmixColumns := by
  simp only [unmixColumns, map, add, Word.unmix_add]

/-- Bytes are substituted back where they stand. -/
theorem unsubstitute_unshiftRows (block : Block) :
    block.unshiftRows.unsubstitute = block.unsubstitute.unshiftRows := by
  simp only [unsubstitute, unshiftRows, map, Word.map]

/-- A full round with the zero key, mixed back, is a round that does not mix. -/
theorem round_unmixColumns (block : Block) :
    (block.round zero).unmixColumns = block.substitute.shiftRows := by
  rw [round, add_zero, unmixColumns_mixColumns]

/-- An equivalent inverse round with the zero key, mixed, is one that does not mix back. -/
theorem inverseRound_mixColumns (block : Block) :
    (block.inverseRound zero).mixColumns = block.unshiftRows.unsubstitute := by
  rw [inverseRound, add_zero, mixColumns_unmixColumns, unsubstitute_unshiftRows]

/-- An equivalent inverse round whose key was mixed back adds the key itself and mixes the sum
back. -/
theorem inverseRound_unmixColumns (block key : Block) :
    block.inverseRound key.unmixColumns =
      (block.unshiftRows.unsubstitute.add key).unmixColumns := by
  rw [inverseRound, unmixColumns_add, unsubstitute_unshiftRows]

end Block

end CipherEngine.Aes
