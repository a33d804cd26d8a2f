import CipherEngine.Proofs.Chaining.Contract

/-!
# Keystream byte by byte

Both feedback modes use up a keystream block one byte at a time: the carry says
how many bytes of the chaining value are still to be used, and when none is left
the chaining value is kept as the previous one and encrypted into a new block.
The modes differ only in what the place of a used byte holds afterwards.

`passBytes` sends a buffer through this machine one byte after the other. It has no
calls, no whole blocks and no bulk routines, so a message cut into pieces passes
as the message does. That the engine's transforms agree with it is proved in the
modules of the two modes; here are its own laws.
-/
namespace CipherEngine.Keystream

/-- What takes the place of a keystream byte that has been used. -/
inductive Feedback where
  /-- The ciphertext byte of the given direction. -/
  | ciphertext (direction : Direction)
  /-- The keystream byte itself. -/
  | keystream

/-- The byte that is left where `pad` masked `byte`. -/
def Feedback.left (pad byte : UInt8) : Feedback → UInt8
  | .ciphertext .encrypt => byte ^^^ pad
  | .ciphertext .decrypt => byte
  | .keystream => pad

variable (encipher : Bytes → Bytes) (feedback : Feedback)

/-- A chain with keystream to use: where the carry is used up, the chaining value
is kept and encrypted, and the whole of it is carried. -/
def refill (chain : Chain) : Chain :=
  if chain.carry = 0 then
    { chain with previous := chain.iv, iv := encipher chain.iv, carry := chain.blockLength }
  else chain

/-- One byte masked with the next keystream byte. -/
def passByte (chain : Chain) (byte : UInt8) : Chain × UInt8 :=
  let ready := refill encipher chain
  let place := ready.blockLength - ready.carry
  let pad := ready.iv.getD place 0
  ({ ready with iv := ready.iv.set place (feedback.left pad byte), carry := ready.carry - 1 },
    byte ^^^ pad)

/-- A buffer masked byte by byte. -/
def passBytes : (chain : Chain) → Bytes → Chain × Bytes
  | chain, [] => (chain, [])
  | chain, byte :: rest =>
    let (next, output) := passByte encipher feedback chain byte
    let (last, outputs) := passBytes next rest
    (last, output :: outputs)

/-- What is left of a keystream block whose front masked a buffer. -/
def leftOver (pad buffer : Bytes) : Bytes :=
  Bytes.overlay (List.zipWith feedback.left pad buffer) pad

/-- Every byte that goes in comes out. -/
@[simp] theorem length_pass (chain : Chain) (buffer : Bytes) :
    (passBytes encipher feedback chain buffer).2.length = buffer.length := by
  induction buffer generalizing chain with
  | nil => rfl
  | cons byte rest inductionHypothesis => simp [passBytes, inductionHypothesis]

/-- A message in two pieces passes as the message in one. -/
theorem pass_append (chain : Chain) (first second : Bytes) :
    passBytes encipher feedback chain (first ++ second) =
      ((passBytes encipher feedback (passBytes encipher feedback chain first).1 second).1,
        (passBytes encipher feedback chain first).2 ++
          (passBytes encipher feedback (passBytes encipher feedback chain first).1 second).2) := by
  induction first generalizing chain with
  | nil => rfl
  | cons byte rest inductionHypothesis =>
    simp only [List.cons_append, passBytes, inductionHypothesis]

/-- What is left of a pad is fed one byte for each byte that passes. -/
theorem leftOver_cons (pad byte : UInt8) (pads rest : Bytes) :
    leftOver feedback (pad :: pads) (byte :: rest) =
      feedback.left pad byte :: leftOver feedback pads rest := by
  simp [leftOver, Bytes.overlay]

/-- Where no byte passes, the whole pad is left. -/
theorem leftOver_nil (pad : Bytes) : leftOver feedback pad [] = pad := by
  simp [leftOver, Bytes.overlay]

/-- Output feedback uses a keystream block without changing it. -/
theorem leftOver_keystream (pad buffer : Bytes) : leftOver .keystream pad buffer = pad := by
  induction pad generalizing buffer with
  | nil => simp [leftOver, Bytes.overlay]
  | cons first pads inductionHypothesis =>
    cases buffer with
    | nil => exact leftOver_nil _ _
    | cons byte rest => rw [leftOver_cons, inductionHypothesis, Feedback.left]

/-- Ciphertext feedback leaves what the engine feeds back. -/
theorem leftOver_ciphertext (direction : Direction) {pad buffer : Bytes}
    (short : buffer.length ≤ pad.length) :
    leftOver (.ciphertext direction) pad buffer = (feed direction pad buffer).1 := by
  have covered : buffer.drop pad.length = [] := List.drop_eq_nil_of_le short
  cases direction with
  | encrypt =>
    simp only [leftOver, feed, Direction.ciphertext, Bytes.mask, covered, List.append_nil]
    rw [List.zipWith_comm]
    rfl
  | decrypt =>
    have whole : List.zipWith (Feedback.left · · (.ciphertext .decrypt)) pad buffer = buffer :=
      List.ext_getElem (by rw [List.length_zipWith]; omega) fun _ _ _ => by simp [Feedback.left]
    simp only [leftOver, feed, Direction.ciphertext, whole]

/-- While the carry lasts, a buffer is masked with the carried keystream and
nothing is encrypted. -/
theorem pass_carried (chain : Chain) (used pad buffer : Bytes)
    (value : chain.iv = used ++ pad) (carried : chain.carry = pad.length)
    (short : buffer.length ≤ pad.length) :
    passBytes encipher feedback chain buffer =
      ({ chain with iv := used ++ leftOver feedback pad buffer,
                    carry := pad.length - buffer.length },
        Bytes.mask buffer pad) := by
  induction buffer generalizing chain used pad with
  | nil =>
    cases chain
    simp_all [passBytes, leftOver_nil, Bytes.mask]
  | cons byte rest inductionHypothesis =>
    cases pad with
    | nil => simp at short
    | cons first pads =>
      have ready : refill encipher chain = chain := by simp [refill, carried]
      have place : chain.blockLength - chain.carry = used.length := by
        simp [Chain.blockLength, value, carried]
      have step : passByte encipher feedback chain byte =
          ({ chain with iv := (used ++ [feedback.left first byte]) ++ pads, carry := pads.length },
            byte ^^^ first) := by
        simp only [passByte, ready, place]
        simp [value, carried]
      have fits : rest.length ≤ pads.length := by simpa using short
      rw [passBytes, step]
      simp only []
      rw [inductionHypothesis _ (used ++ [feedback.left first byte]) pads rfl rfl fits]
      simp [leftOver_cons, Bytes.mask]

/-- From a block boundary, up to a block is masked with the new keystream block,
and the chaining value before it is kept. -/
theorem pass_fresh (chain : Chain) {buffer : Bytes} (boundary : chain.carry = 0)
    (width : (encipher chain.iv).length = chain.iv.length) (filled : buffer ≠ [])
    (short : buffer.length ≤ chain.iv.length) :
    passBytes encipher feedback chain buffer =
      ({ chain with previous := chain.iv, iv := leftOver feedback (encipher chain.iv) buffer,
                    carry := chain.iv.length - buffer.length },
        Bytes.mask buffer (encipher chain.iv)) := by
  have refilled : refill encipher chain =
      { chain with previous := chain.iv, iv := encipher chain.iv, carry := chain.iv.length } := by
    simp [refill, boundary, Chain.blockLength]
  have again : refill encipher (refill encipher chain) = refill encipher chain := by
    have positive : chain.iv.length ≠ 0 := by
      have counted : buffer.length ≠ 0 := fun none => filled (List.length_eq_zero_iff.mp none)
      omega
    rw [refilled]
    simp [refill, positive]
  have same : passBytes encipher feedback chain buffer =
      passBytes encipher feedback (refill encipher chain) buffer := by
    cases buffer with
    | nil => exact absurd rfl filled
    | cons byte rest => simp only [passBytes, passByte, again]
  rw [same, refilled]
  rw [pass_carried encipher feedback _ [] (encipher chain.iv) buffer rfl width.symm
    (by rw [width]; exact short)]
  simp [width]

/-- As long as the carry lasts, it goes down by one with every byte. -/
theorem carry_pass (chain : Chain) {buffer : Bytes} (short : buffer.length ≤ chain.carry) :
    (passBytes encipher feedback chain buffer).1.carry = chain.carry - buffer.length := by
  induction buffer generalizing chain with
  | nil => rfl
  | cons byte rest inductionHypothesis =>
    rw [List.length_cons] at short ⊢
    have carried : chain.carry ≠ 0 := by omega
    have step : (passByte encipher feedback chain byte).1.carry = chain.carry - 1 := by
      simp [passByte, refill, carried]
    have later := inductionHypothesis (passByte encipher feedback chain byte).1 (by omega)
    rw [passBytes, later, step]
    omega

/-- There is keystream to use in a chain that has been refilled: up to a block of it. -/
theorem refill_ready {size : Nat} {chain : Chain}
    (width : ∀ block : Bytes, block.length = size → (encipher block).length = size)
    (fits : chain.Fits size) :
    (refill encipher chain).iv.length = size ∧ 0 < (refill encipher chain).carry ∧
      (refill encipher chain).carry ≤ size := by
  have positive := fits.positive
  have small := fits.carry
  rw [refill]
  split
  · simp only [Chain.blockLength, fits.iv]
    exact ⟨width chain.iv fits.iv, positive, Nat.le_refl size⟩
  · next carried => exact ⟨fits.iv, Nat.pos_of_ne_zero carried, Nat.le_of_lt small⟩

/-- The machine keeps every length, and never carries a whole block. -/
theorem passByte_fits {size : Nat} {chain : Chain} (byte : UInt8)
    (width : ∀ block : Bytes, block.length = size → (encipher block).length = size)
    (fits : chain.Fits size) : (passByte encipher feedback chain byte).1.Fits size := by
  obtain ⟨iv, previous, counter, scratch, carry⟩ := fits
  by_cases boundary : chain.carry = 0
  · have filled := width chain.iv iv
    constructor <;> simp [passByte, refill, boundary, Chain.blockLength] <;> omega
  · constructor <;> simp [passByte, refill, boundary] <;> omega

/-- A state that fits still fits when a message has passed, as each byte leaves one that does. -/
theorem pass_fits {size : Nat} {chain : Chain} (buffer : Bytes)
    (width : ∀ block : Bytes, block.length = size → (encipher block).length = size)
    (fits : chain.Fits size) : (passBytes encipher feedback chain buffer).1.Fits size := by
  induction buffer generalizing chain with
  | nil => exact fits
  | cons byte rest inductionHypothesis =>
    exact inductionHypothesis (passByte_fits encipher feedback byte width fits)

/-- What one byte keeps, whatever its direction, a buffer keeps. -/
theorem pass_keeps (Holds : Chain → (plaintext ciphertext : Bytes) → Prop) {size : Nat}
    {direction : Direction}
    (width : ∀ block : Bytes, block.length = size → (encipher block).length = size)
    (step : ∀ (chain : Chain) (plaintext ciphertext : Bytes) (byte : UInt8), chain.Fits size →
      Holds chain plaintext ciphertext →
      let passed := passByte encipher feedback chain byte
      Holds passed.1 (plaintext ++ direction.plaintext [byte] [passed.2])
        (ciphertext ++ direction.ciphertext [byte] [passed.2]))
    {chain : Chain} (fits : chain.Fits size) (buffer plaintext ciphertext : Bytes)
    (holds : Holds chain plaintext ciphertext) :
    let passed := passBytes encipher feedback chain buffer
    Holds passed.1 (plaintext ++ direction.plaintext buffer passed.2)
      (ciphertext ++ direction.ciphertext buffer passed.2) := by
  induction buffer generalizing chain plaintext ciphertext with
  | nil =>
    cases direction <;> simpa [passBytes, Direction.plaintext, Direction.ciphertext] using holds
  | cons byte rest inductionHypothesis =>
    have first := step chain plaintext ciphertext byte fits holds
    have later := inductionHypothesis (passByte_fits encipher feedback byte width fits) _ _ first
    cases direction <;>
      simpa [passBytes, Direction.plaintext, Direction.ciphertext] using later

/-- A chain without the previous chaining value where that can no longer matter:
at a block boundary it is overwritten before it is read. -/
def settle (chain : Chain) : Chain :=
  if chain.carry = 0 then { chain with previous := [] } else chain

/-- Settling leaves the chaining value: at a boundary it forgets the previous one, and nothing
else. -/
@[simp] theorem iv_settle (chain : Chain) : (settle chain).iv = chain.iv := by
  unfold settle
  split <;> rfl

/-- It leaves what is carried. -/
@[simp] theorem carry_settle (chain : Chain) : (settle chain).carry = chain.carry := by
  unfold settle
  split <;> rfl

/-- It leaves the counter. -/
@[simp] theorem counter_settle (chain : Chain) : (settle chain).counter = chain.counter := by
  unfold settle
  split <;> rfl

/-- And it leaves the scratch block. -/
@[simp] theorem scratch_settle (chain : Chain) : (settle chain).scratch = chain.scratch := by
  unfold settle
  split <;> rfl

/-- The chains agree on what the machine reads: the chaining value and the carry, and inside a
block the previous chaining value. -/
structure Alike (chain other : Chain) : Prop where
  iv : chain.iv = other.iv
  carry : chain.carry = other.carry
  previous : chain.carry ≠ 0 → chain.previous = other.previous

/-- Chains that settle to the same are alike. -/
theorem Alike.of_settle {chain other : Chain} (same : settle chain = settle other) :
    Alike chain other := by
  have carry : chain.carry = other.carry := by simpa using congrArg Chain.carry same
  refine ⟨by simpa using congrArg Chain.iv same, carry, fun inside => ?_⟩
  rw [settle, if_neg inside, settle, if_neg (carry ▸ inside)] at same
  rw [same]

/-- At a block boundary, chains that differ only in the previous chaining value settle
to the same. -/
theorem settle_eq_of_boundary {chain other : Chain} (boundary : chain.carry = 0)
    (otherBoundary : other.carry = 0) (iv : chain.iv = other.iv)
    (counter : chain.counter = other.counter) (scratch : chain.scratch = other.scratch) :
    settle chain = settle other := by
  rw [settle, settle, if_pos boundary, if_pos otherBoundary, iv, counter, scratch, boundary,
    otherBoundary]

/-- The machine cannot tell apart chains that settle to the same. -/
theorem passByte_congr {chain other : Chain} (byte : UInt8)
    (alike : settle chain = settle other) :
    passByte encipher feedback chain byte = passByte encipher feedback other byte := by
  have refilled : refill encipher chain = refill encipher other := by
    unfold settle at alike
    unfold refill
    by_cases boundary : chain.carry = 0 <;> by_cases otherBoundary : other.carry = 0 <;>
      simp only [boundary, otherBoundary, if_true, if_false] at alike ⊢ <;>
      cases chain <;> cases other <;> simp_all [Chain.blockLength]
  simp only [passByte, refilled]

/-- States that settle alike pass a message alike, to states that settle alike. -/
theorem pass_congr {chain other : Chain} (buffer : Bytes)
    (alike : settle chain = settle other) :
    settle (passBytes encipher feedback chain buffer).1 =
        settle (passBytes encipher feedback other buffer).1 ∧
      (passBytes encipher feedback chain buffer).2 =
        (passBytes encipher feedback other buffer).2 := by
  cases buffer with
  | nil => exact ⟨alike, rfl⟩
  | cons byte rest =>
    have step := passByte_congr encipher feedback byte alike
    simp only [passBytes, step, and_self]

/-- What the second leaves for a masked byte, the first leaves for the byte. -/
def Feedback.Returns (feedback back : Feedback) : Prop :=
  ∀ pad byte, back.left pad (byte ^^^ pad) = feedback.left pad byte

/-- The machine that returns a byte ends where the machine that masked it did. -/
theorem passByte_returns {feedback back : Feedback} (returns : feedback.Returns back)
    (chain : Chain) (byte : UInt8) :
    passByte encipher back chain (passByte encipher feedback chain byte).2 =
      ((passByte encipher feedback chain byte).1, byte) := by
  simp only [passByte, returns _ byte, UInt8.xor_assoc, UInt8.xor_self, UInt8.xor_zero]

/-- A message that passes and passes back is what it was, and both ways the state ends the same. -/
theorem pass_returns {feedback back : Feedback} (returns : feedback.Returns back) (chain : Chain)
    (buffer : Bytes) :
    passBytes encipher back chain (passBytes encipher feedback chain buffer).2 =
      ((passBytes encipher feedback chain buffer).1, buffer) := by
  induction buffer generalizing chain with
  | nil => rfl
  | cons byte rest inductionHypothesis =>
    simp only [passBytes, passByte_returns encipher returns, inductionHypothesis]

end CipherEngine.Keystream
