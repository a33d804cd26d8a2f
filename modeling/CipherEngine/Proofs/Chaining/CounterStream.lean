import Mathlib.Data.Nat.ModEq
import CipherEngine.Proofs.Chaining.Counter
import CipherEngine.Proofs.Chaining.Digits

/-!
# Which counter masks which byte

The counters of one length are the numbers of so many digits, and they are gone
through in a circle: after so many blocks the counter is the number it began with
plus the count of blocks, modulo the count of all counters. On the way round no
counter comes twice. The keystream of a call is therefore known at every place: it
is a byte of the encryption of the counter that stands so many blocks on.
-/
namespace CipherEngine.Counter

/-- The counter that is so many blocks on. -/
def onward (start : Bytes) (count : Nat) : Bytes :=
  Bytes.ofBigEndian start.length ((Bytes.bigEndian start + count) % 256 ^ start.length)

/-- A counter has one length, however far it goes. -/
@[simp] theorem length_onward (start : Bytes) (count : Nat) :
    (onward start count).length = start.length := Bytes.length_ofBigEndian _ _

/-- Counting on adds to the number, modulo the count of all counters. -/
theorem bigEndian_iterate (counter : Bytes) (count : Nat) :
    Bytes.bigEndian (successor^[count] counter) =
      (Bytes.bigEndian counter + count) % 256 ^ counter.length := by
  induction count with
  | zero =>
    have bound := Bytes.littleEndian_lt counter.reverse
    rw [← Bytes.bigEndian_eq_littleEndian_reverse, List.length_reverse] at bound
    exact (Nat.mod_eq_of_lt bound).symm
  | succ count inductionHypothesis =>
    rw [Function.iterate_succ_apply', bigEndian_successor, length_iterate, inductionHypothesis,
      Nat.mod_add_mod, Nat.add_assoc]

/-- As many successors lead as many blocks on. -/
theorem iterate_eq_onward (counter : Bytes) (count : Nat) :
    successor^[count] counter = onward counter count := by
  have written := Bytes.ofBigEndian_bigEndian (successor^[count] counter)
  rw [length_iterate, bigEndian_iterate] at written
  exact written.symm

/-- A counter that goes no step stays. -/
theorem onward_zero (start : Bytes) : onward start 0 = start := (iterate_eq_onward start 0).symm

/-- A counter that goes on from where it went has gone both ways. -/
theorem onward_onward (start : Bytes) (first second : Nat) :
    onward (onward start first) second = onward start (first + second) := by
  simp only [← iterate_eq_onward]
  rw [← Function.iterate_add_apply, Nat.add_comm]

/-- The last counter is followed by zero. -/
example : onward [0xFF, 0xFF, 0xFF] 3 = [0, 0, 2] := by decide

/-- On the way round, no counter comes twice. -/
theorem onward_ne_onward (start : Bytes) {first second : Nat} (order : first < second)
    (near : second < first + 256 ^ start.length) : onward start first ≠ onward start second := by
  intro same
  have numbers := congrArg Bytes.bigEndian same
  simp only [onward, Bytes.bigEndian_ofBigEndian, Nat.mod_mod] at numbers
  have apart : first ≡ second [MOD 256 ^ start.length] :=
    Nat.ModEq.add_left_cancel' (Bytes.bigEndian start) numbers
  have turns : 256 ^ start.length ∣ second - first :=
    (Nat.modEq_iff_dvd' (Nat.le_of_lt order)).mp apart
  have whole := Nat.le_of_dvd (Nat.sub_pos_of_lt order) turns
  omega

/-- Fewer blocks than there are counters are told apart by their counters. -/
theorem eq_of_onward_eq {start : Bytes} {limit first second : Nat}
    (room : limit ≤ 256 ^ start.length) (below : first < limit) (otherBelow : second < limit)
    (same : onward start first = onward start second) : first = second := by
  rcases Nat.lt_trichotomy first second with before | equal | after
  · exact absurd same (onward_ne_onward start before (by omega))
  · exact equal
  · exact absurd same.symm (onward_ne_onward start after (by omega))

/-- A byte of the keystream is a byte of the encryption of the counter that masks its block. -/
theorem getD_keystream {encipher : Bytes → Bytes} {size : Nat}
    (width : ∀ block : Bytes, block.length = size → (encipher block).length = size)
    (positive : 0 < size) {counter : Bytes} (sized : counter.length = size) {count place : Nat}
    (inside : place / size < count) :
    (keystream encipher counter count).getD place 0 =
      (encipher (onward counter (place / size))).getD (place % size) 0 := by
  induction count generalizing counter place with
  | zero => exact absurd inside (Nat.not_lt_zero _)
  | succ count inductionHypothesis =>
    have first := width counter sized
    rw [keystream, List.getD_eq_getElem?_getD, List.getElem?_append, first]
    by_cases early : place < size
    · rw [if_pos early, Nat.div_eq_of_lt early, Nat.mod_eq_of_lt early, onward_zero,
        List.getD_eq_getElem?_getD]
    · have late : size ≤ place := Nat.not_lt.mp early
      have later := Nat.div_eq_sub_div positive late
      have nextSized : (successor counter).length = size := (length_successor counter).trans sized
      rw [if_neg early, ← List.getD_eq_getElem?_getD,
        inductionHypothesis nextSized (by omega), later, ← Nat.mod_eq_sub_mod late]
      rw [← iterate_eq_onward, ← iterate_eq_onward, Function.iterate_succ_apply]

end CipherEngine.Counter
