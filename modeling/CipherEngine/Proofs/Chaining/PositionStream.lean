import CipherEngine.Proofs.Chaining.CarriedStream
import CipherEngine.Proofs.Chaining.Digits
import CipherEngine.Standin.PositionStream

/-!
# The keystream that counts

The counting cipher masks a byte with the byte of its key and the position, of which it
takes the low eight bits. It does not remember the position itself: every call reads it
from eight bytes of the context and writes it back, so it is known modulo 2⁶⁴ only. That
is enough, since 2⁵⁶ rounds of the keystream end exactly where the position begins anew.

`padAt` and `contextAt` say this without the calls: which byte masks a position, and what
a context is there.
-/
namespace CipherEngine

/-- Digits that are not kept do not matter. -/
theorem Bytes.ofLittleEndian_mod (length value : Nat) :
    ofLittleEndian length (value % 256 ^ length) = ofLittleEndian length value := by
  have again := ofLittleEndian_littleEndian (ofLittleEndian length value)
  rwa [length_ofLittleEndian, littleEndian_ofLittleEndian] at again

namespace Standin.PositionStream

/-- The byte of the keystream at a position. -/
def padAt (key : UInt8) (position : Nat) : UInt8 := key ^^^ UInt8.ofNat (position % 256)

/-- The context of so many bytes at a position: the byte of the key, eight digits of the
position, and zeros. -/
def contextAt (size : Nat) (key : UInt8) (position : Nat) : Bytes :=
  key :: (Bytes.ofLittleEndian 8 (position % 2 ^ 64) ++ Bytes.zeros (size - contextSize))

/-- A context at any position fills the memory that it lies in. -/
theorem length_contextAt {size : Nat} (room : contextSize ≤ size) (key : UInt8) (position : Nat) :
    (contextAt size key position).length = size := by
  simp only [contextAt, contextSize, List.length_cons, List.length_append,
    Bytes.length_ofLittleEndian, Bytes.length_zeros] at room ⊢
  omega

/-- The position is read as far as it was written. -/
theorem position_contextAt (size : Nat) (key : UInt8) (written : Nat) :
    position (contextAt size key written) = written % 2 ^ 64 := by
  have held : Bytes.window 1 8 (contextAt size key written) =
      Bytes.ofLittleEndian 8 (written % 2 ^ 64) := by
    have middle := Bytes.window_middle [key] (Bytes.ofLittleEndian 8 (written % 2 ^ 64))
      (Bytes.zeros (size - contextSize))
    rwa [Bytes.length_ofLittleEndian] at middle
  rw [position, held, Bytes.littleEndian_ofLittleEndian]
  exact Nat.mod_mod _ _

/-- Another position takes the place of the old one, and nothing else changes. -/
theorem withPosition_contextAt (size : Nat) (key : UInt8) (old new : Nat) :
    withPosition new (contextAt size key old) = contextAt size key new := by
  have digits : Bytes.ofLittleEndian 8 new = Bytes.ofLittleEndian 8 (new % 2 ^ 64) :=
    (Bytes.ofLittleEndian_mod 8 new).symm
  rw [withPosition, Bytes.overlayAt_of_inside (by simp [contextAt])]
  simp [contextAt, digits]

/-- What masks a byte depends on the position modulo any power of two that the digits keep. -/
theorem padAt_eq (key : UInt8) (start place : Nat) :
    key ^^^ UInt8.ofNat (start % 2 ^ 64 + place) = padAt key (start + place) := by
  have low : UInt8.ofNat (start % 2 ^ 64 + place) = UInt8.ofNat ((start + place) % 256) := by
    apply UInt8.toNat_inj.mp
    rw [UInt8.toNat_ofNat', UInt8.toNat_ofNat']
    omega
  rw [padAt, low]

/-- Every byte is masked with the byte of the key and its own position. -/
theorem getD_maskFrom (key : UInt8) (start : Nat) {buffer : Bytes} {place : Nat}
    (inside : place < buffer.length) :
    (maskFrom key start buffer).getD place 0 =
      buffer.getD place 0 ^^^ (key ^^^ UInt8.ofNat (start + place)) := by
  induction buffer generalizing start place with
  | nil => exact absurd inside (Nat.not_lt_zero place)
  | cons byte rest inductionHypothesis =>
    cases place with
    | zero => rfl
    | succ place =>
      have later := inductionHypothesis (start + 1) (Nat.lt_of_succ_lt_succ inside)
      rw [Nat.add_right_comm] at later
      exact later

/-- A call at a position masks with the keystream from there on, and moves past its bytes. -/
theorem advance_contextAt (size : Nat) (key : UInt8) (start : Nat) (buffer : Bytes) :
    advance (contextAt size key start) buffer =
      (contextAt size key (start + buffer.length), maskFrom key (start % 2 ^ 64) buffer) := by
  have wraps : contextAt size key (start % 2 ^ 64 + buffer.length) =
      contextAt size key (start + buffer.length) := by
    rw [contextAt, contextAt, Nat.mod_add_mod]
  rw [advance, position_contextAt, withPosition_contextAt, wraps]
  rfl

/-- A key that has a byte is taken, and the stream is at its beginning. -/
theorem setKey_cons {context : Bytes} (room : contextSize ≤ context.length) (key : UInt8)
    (rest : Bytes) :
    setKey context (key :: rest) = ⟨.ok (), contextAt context.length key 0⟩ := by
  have padded : Bytes.overlay [key] (Bytes.zeros context.length) =
      key :: Bytes.zeros (context.length - 1) :=
    Bytes.fit_append (Nat.one_le_of_lt room)
  have digits : Bytes.ofLittleEndian 8 (0 % 2 ^ 64) = Bytes.zeros 8 := rfl
  have split : context.length - 1 = 8 + (context.length - contextSize) := by
    rw [contextSize] at room ⊢
    omega
  rw [setKey, padded, contextAt, digits, split]
  simp only [Bytes.zeros, List.replicate_append_replicate]

end Standin.PositionStream

end CipherEngine
