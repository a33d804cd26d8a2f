import CipherEngine.Proofs.Chaining.CipherFeedback

/-!
# The ciphertext stream of cipher feedback

Cipher feedback is defined by one stream: the initial chaining value and all the
ciphertext after it, in whichever direction it was processed. Each block of that
stream is masked with the encryption of the block before it.

`Enciphers` is that definition for a message from its beginning. `Follows` is what
a chain keeps of the stream: at a block boundary its last block, and inside a
block the last full block before it and the part of the block that is there.
The byte-by-byte machine keeps both. A realignment keeps the second, and that is
what it is for.
-/
namespace CipherEngine.CipherFeedback

open Keystream

/-- The ciphertext of a plaintext under an initial chaining value: each byte is
masked with the byte at its place of an encrypted block, and that block is the
one just before, in the stream of the chaining value and the ciphertext. -/
def Enciphers (encipher : Bytes → Bytes) (iv plaintext ciphertext : Bytes) : Prop :=
  plaintext.length = ciphertext.length ∧
    ∀ index < ciphertext.length,
      ciphertext.getD index 0 =
        plaintext.getD index 0 ^^^
          (encipher (Bytes.window (iv.length * (index / iv.length)) iv.length
            (iv ++ ciphertext))).getD (index % iv.length) 0

/-- Bytes of the current block that are ciphertext already. -/
def used (chain : Chain) : Nat := chain.blockLength - chain.carry

/-- What the chain keeps of the end of a stream. At a block boundary the chaining
value is the end. Inside a block, the previous chaining value stands before the
part of the block that is there, and the rest of the chaining value is keystream
made from the previous one. -/
structure Follows (encipher : Bytes → Bytes) (chain : Chain) (stream : Bytes) : Prop where
  boundary : chain.carry = 0 → chain.iv <:+ stream
  inside : chain.carry ≠ 0 → chain.previous ++ chain.iv.take (used chain) <:+ stream
  keystream : chain.carry ≠ 0 →
    chain.iv.drop (used chain) = (encipher chain.previous).drop (used chain)

/-- Chains that are alike follow the same streams. -/
theorem Follows.congr {encipher : Bytes → Bytes} {chain other : Chain} {stream : Bytes}
    (follows : Follows encipher chain stream) (alike : Alike chain other) :
    Follows encipher other stream := by
  obtain ⟨iv, carry, previous⟩ := alike
  have place : used chain = used other := by
    rw [used, used, Chain.blockLength, Chain.blockLength, iv, carry]
  constructor
  · intro boundary
    rw [← iv]
    exact follows.boundary (carry.trans boundary)
  · intro inside
    have within : chain.carry ≠ 0 := carry ▸ inside
    rw [← previous within, ← iv, ← place]
    exact follows.inside within
  · intro inside
    have within : chain.carry ≠ 0 := carry ▸ inside
    rw [← previous within, ← iv, ← place]
    exact follows.keystream within

/-- With keystream to use, the previous chaining value stands in the stream before
the part of the block that is there, wherever the chain was. -/
theorem Follows.refill {encipher : Bytes → Bytes} {chain : Chain} {stream : Bytes} {size : Nat}
    (width : ∀ block : Bytes, block.length = size → (encipher block).length = size)
    (fits : chain.Fits size) (follows : Follows encipher chain stream) :
    let ready := Keystream.refill encipher chain
    ready.iv.length = size ∧ ready.previous.length = size ∧ 0 < ready.carry ∧
      ready.carry ≤ size ∧ ready.previous ++ ready.iv.take (used ready) <:+ stream ∧
      ready.iv.drop (used ready) = (encipher ready.previous).drop (used ready) := by
  intro ready
  have small := fits.carry
  by_cases boundary : chain.carry = 0
  · have filled := width chain.iv fits.iv
    have refilled : ready =
        { chain with previous := chain.iv, iv := encipher chain.iv, carry := size } := by
      simp only [ready, Keystream.refill, if_pos boundary, Chain.blockLength, fits.iv]
    have start : used ready = 0 := by
      simp [used, refilled, Chain.blockLength, filled]
    rw [start, refilled]
    refine ⟨filled, fits.iv, Nat.lt_of_le_of_lt (Nat.zero_le _) small, Nat.le_refl _, ?_, rfl⟩
    simpa using follows.boundary boundary
  · have same : ready = chain := if_neg boundary
    rw [same]
    exact ⟨fits.iv, fits.previous, by omega, by omega, follows.inside boundary,
      follows.keystream boundary⟩

/-- The front of a block with one more byte in it. -/
theorem take_set (block : Bytes) (place : Nat) (byte : UInt8) (inside : place < block.length) :
    (block.set place byte).take (place + 1) = block.take place ++ [byte] := by
  have width : (block.take place).length = place := by
    rw [List.length_take]
    omega
  rw [List.set_eq_take_append_cons_drop, if_pos inside, List.take_append, width,
    List.take_of_length_le (by omega)]
  simp

/-- The ciphertext of one byte is what is left of the keystream byte. -/
theorem ciphertext_byte (direction : Direction) (pad byte : UInt8) :
    direction.ciphertext [byte] [byte ^^^ pad] =
      [Feedback.left pad byte (.ciphertext direction)] := by
  cases direction <;> rfl

/-- One byte keeps the chain at the end of the stream. -/
theorem Follows.passByte {encipher : Bytes → Bytes} {chain : Chain} {stream : Bytes} {size : Nat}
    (width : ∀ block : Bytes, block.length = size → (encipher block).length = size)
    (fits : chain.Fits size) (follows : Follows encipher chain stream) (direction : Direction)
    (byte : UInt8) :
    let passed := Keystream.passByte encipher (.ciphertext direction) chain byte
    Follows encipher passed.1 (stream ++ direction.ciphertext [byte] [passed.2]) := by
  obtain ⟨ivWidth, previousWidth, positive, few, ends, keystream⟩ := follows.refill width fits
  simp only [Keystream.passByte, ciphertext_byte]
  generalize Keystream.refill encipher chain = ready at *
  have place : used ready = size - ready.carry := by
    rw [used, Chain.blockLength, ivWidth]
  have inside : used ready < ready.iv.length := by omega
  change Follows encipher
    { ready with
      iv := ready.iv.set (used ready)
        (Feedback.left (ready.iv.getD (used ready) 0) byte (.ciphertext direction))
      carry := ready.carry - 1 }
    (stream ++ [Feedback.left (ready.iv.getD (used ready) 0) byte (.ciphertext direction)])
  generalize Feedback.left (ready.iv.getD (used ready) 0) byte (.ciphertext direction) = written
  have next : used { ready with
      iv := ready.iv.set (used ready) written, carry := ready.carry - 1 } = used ready + 1 := by
    simp only [used, Chain.blockLength, List.length_set, ivWidth]
    omega
  have longer : ready.previous ++ (ready.iv.set (used ready) written).take (used ready + 1) <:+
      stream ++ [written] := by
    rw [take_set _ _ _ inside, ← List.append_assoc]
    exact List.suffix_append_self_iff.mpr ends
  constructor
  · intro full
    have whole : (ready.iv.set (used ready) written).length ≤ used ready + 1 := by
      rw [List.length_set, ivWidth]
      change ready.carry - 1 = 0 at full
      omega
    rw [List.take_of_length_le whole] at longer
    exact (List.suffix_append _ _).trans longer
  · intro more
    rw [next]
    exact longer
  · intro more
    have rest := congrArg (List.drop 1) keystream
    rw [List.drop_drop, List.drop_drop] at rest
    rw [next, List.drop_set_of_lt (Nat.lt_succ_self _)]
    exact rest

/-- One more byte of a message: it is masked with the block before it in the stream. -/
theorem Enciphers.snoc {encipher : Bytes → Bytes} {iv plaintext ciphertext : Bytes}
    (enciphers : Enciphers encipher iv plaintext ciphertext) {plain secret : UInt8}
    (masked : secret = plain ^^^
      (encipher (Bytes.window (iv.length * (ciphertext.length / iv.length)) iv.length
        (iv ++ ciphertext))).getD (ciphertext.length % iv.length) 0) :
    Enciphers encipher iv (plaintext ++ [plain]) (ciphertext ++ [secret]) := by
  obtain ⟨sameLength, bytes⟩ := enciphers
  refine ⟨by simp [sameLength], ?_⟩
  intro index inside
  rw [List.length_append, List.length_singleton] at inside
  have whole := Nat.div_mul_le_self index iv.length
  have before : iv.length * (index / iv.length) + iv.length ≤ (iv ++ ciphertext).length := by
    rw [List.length_append, Nat.mul_comm]
    omega
  rw [← List.append_assoc, Bytes.window_append _ before]
  rcases Nat.lt_or_eq_of_le (Nat.le_of_lt_succ inside) with earlier | rfl
  · have held := bytes index earlier
    simp only [List.getD_eq_getElem?_getD, List.getElem?_append_left earlier,
      List.getElem?_append_left (sameLength ▸ earlier)] at held ⊢
    exact held
  · have lastPlain : (plaintext ++ [plain]).getD ciphertext.length 0 = plain := by
      simp [← sameLength]
    have lastSecret : (ciphertext ++ [secret]).getD ciphertext.length 0 = secret := by simp
    rw [lastPlain, lastSecret]
    exact masked

/-- The ciphertext determines the plaintext. -/
theorem Enciphers.plaintext_unique {encipher : Bytes → Bytes}
    {iv plaintext other ciphertext : Bytes}
    (enciphers : Enciphers encipher iv plaintext ciphertext)
    (again : Enciphers encipher iv other ciphertext) : plaintext = other := by
  have sameLength : plaintext.length = other.length := enciphers.1.trans again.1.symm
  refine List.ext_getElem sameLength fun index inside otherInside => ?_
  have reached : index < ciphertext.length := enciphers.1 ▸ inside
  have masked := (enciphers.2 index reached).symm.trans (again.2 index reached)
  have equal := (UInt8.xor_left_inj _).mp masked
  simpa [List.getD_eq_getElem?_getD, inside, otherInside] using equal

/-- The plaintext determines the ciphertext, since every byte is masked with what
comes before it. -/
theorem Enciphers.ciphertext_unique {encipher : Bytes → Bytes}
    {iv plaintext ciphertext other : Bytes}
    (enciphers : Enciphers encipher iv plaintext ciphertext)
    (again : Enciphers encipher iv plaintext other) : ciphertext = other := by
  have sameLength : ciphertext.length = other.length := enciphers.1.symm.trans again.1
  have fronts : ∀ count ≤ ciphertext.length, ciphertext.take count = other.take count := by
    intro count
    induction count with
    | zero => exact fun _ => rfl
    | succ count inductionHypothesis =>
      intro reached
      have front := inductionHypothesis (by omega)
      have source (bytes : Bytes) (filled : count ≤ bytes.length) :
          Bytes.window (iv.length * (count / iv.length)) iv.length (iv ++ bytes) =
            Bytes.window (iv.length * (count / iv.length)) iv.length (iv ++ bytes.take count) := by
        have whole := Nat.div_mul_le_self count iv.length
        rw [Nat.mul_comm] at whole
        have inside : iv.length * (count / iv.length) + iv.length ≤
            (iv ++ bytes.take count).length := by
          rw [List.length_append, List.length_take]
          omega
        rw [← Bytes.window_append (bytes.drop count) inside, List.append_assoc,
          List.take_append_drop]
      have first := enciphers.2 count (by omega)
      have second := again.2 count (by omega)
      rw [source ciphertext (by omega), front, ← source other (by omega), ← second] at first
      rw [List.take_add_one, List.take_add_one, front]
      congr 1
      have inside : count < ciphertext.length := by omega
      have otherInside : count < other.length := by omega
      simpa [List.getD_eq_getElem?_getD, inside, otherInside] using first
  have whole := fronts ciphertext.length (Nat.le_refl _)
  rwa [List.take_length, sameLength, List.take_length] at whole

/-- Where the chain stands in a message under an initial chaining value. -/
structure Tracks (encipher : Bytes → Bytes) (iv plaintext ciphertext : Bytes) (chain : Chain) :
    Prop where
  follows : Follows encipher chain (iv ++ ciphertext)
  enciphers : Enciphers encipher iv plaintext ciphertext
  aligned : (ciphertext.length + chain.carry) % iv.length = 0

/-- Chains that are alike have the same place in a message. -/
theorem Tracks.congr {encipher : Bytes → Bytes} {iv plaintext ciphertext : Bytes}
    {chain other : Chain} (tracks : Tracks encipher iv plaintext ciphertext chain)
    (alike : Alike chain other) : Tracks encipher iv plaintext ciphertext other :=
  ⟨tracks.follows.congr alike, tracks.enciphers, alike.carry ▸ tracks.aligned⟩

/-- A chain is at the beginning of every message under its chaining value. -/
theorem Tracks.start (encipher : Bytes → Bytes) {chain : Chain} (boundary : chain.carry = 0) :
    Tracks encipher chain.iv [] [] chain := by
  constructor
  · constructor
    · intro
      simpa only [List.append_nil] using List.suffix_refl chain.iv
    · exact fun inside => absurd boundary inside
    · exact fun inside => absurd boundary inside
  · exact ⟨rfl, fun index inside => absurd inside (Nat.not_lt_zero index)⟩
  · simp [boundary]

/-- With keystream to use, the carry says where in its block the stream ends. -/
theorem place_of_carry {count carry size : Nat} (positive : 0 < carry) (few : carry ≤ size)
    (aligned : (count + carry) % size = 0) :
    count % size = size - carry ∧ size * (count / size) + (size - carry) = count := by
  obtain ⟨blocks, total⟩ := Nat.dvd_of_mod_eq_zero aligned
  cases blocks with
  | zero => omega
  | succ fewer =>
    rw [Nat.mul_succ] at total
    have below : size - carry < size := by omega
    have sum : count = size * fewer + (size - carry) := by omega
    have quotient : count / size = fewer := by
      rw [sum, Nat.mul_add_div (by omega), Nat.div_eq_of_lt below, Nat.add_zero]
    refine ⟨?_, by rw [quotient]; exact sum.symm⟩
    rw [sum, Nat.mul_add_mod, Nat.mod_eq_of_lt below]

/-- One byte keeps the place in the message. -/
theorem Tracks.passByte {encipher : Bytes → Bytes} {iv plaintext ciphertext : Bytes}
    {chain : Chain}
    (width : ∀ block : Bytes, block.length = iv.length → (encipher block).length = iv.length)
    (fits : chain.Fits iv.length) (tracks : Tracks encipher iv plaintext ciphertext chain)
    (direction : Direction) (byte : UInt8) :
    let passed := Keystream.passByte encipher (.ciphertext direction) chain byte
    Tracks encipher iv (plaintext ++ direction.plaintext [byte] [passed.2])
      (ciphertext ++ direction.ciphertext [byte] [passed.2]) passed.1 := by
  have kept := tracks.follows.passByte width fits direction byte
  have aligned : (ciphertext.length + (Keystream.refill encipher chain).carry) % iv.length = 0 := by
    have total := tracks.aligned
    unfold Keystream.refill
    split
    · next boundary =>
      rw [boundary] at total
      simpa [Chain.blockLength, fits.iv] using total
    · exact total
  obtain ⟨ivWidth, previousWidth, positive, few, ⟨before, ends⟩, keystream⟩ :=
    tracks.follows.refill width fits
  simp only [Keystream.passByte] at kept ⊢
  generalize Keystream.refill encipher chain = ready at *
  obtain ⟨place, blocks⟩ := place_of_carry positive few aligned
  have start : used ready = iv.length - ready.carry := by
    rw [used, Chain.blockLength, ivWidth]
  have counted := congrArg List.length ends
  simp only [List.length_append, List.length_take, previousWidth, ivWidth, start] at counted
  have front : before.length = iv.length * (ciphertext.length / iv.length) := by omega
  -- The block before the current one is the previous chaining value.
  have source : Bytes.window (iv.length * (ciphertext.length / iv.length)) iv.length
      (iv ++ ciphertext) = ready.previous := by
    rw [← ends, ← front]
    have middle := Bytes.window_middle before ready.previous (ready.iv.take (used ready))
    rwa [previousWidth] at middle
  have pad : (encipher ready.previous).getD (ciphertext.length % iv.length) 0 =
      ready.iv.getD (used ready) 0 := by
    have first := congrArg (fun rest : Bytes => rest[0]?) keystream
    simp only [List.getElem?_drop, Nat.add_zero] at first
    rw [place, ← start, List.getD_eq_getElem?_getD, List.getD_eq_getElem?_getD, first]
  constructor
  · rw [← List.append_assoc]
    exact kept
  · cases direction with
    | encrypt =>
      apply tracks.enciphers.snoc
      rw [source, pad]
      rfl
    | decrypt =>
      apply tracks.enciphers.snoc
      rw [source, pad]
      change byte = (byte ^^^ ready.iv.getD (used ready) 0) ^^^ ready.iv.getD (used ready) 0
      rw [UInt8.xor_assoc, UInt8.xor_self, UInt8.xor_zero]
  · rw [ciphertext_byte, List.length_append, List.length_singleton]
    change (ciphertext.length + 1 + (ready.carry - 1)) % iv.length = 0
    have total : ciphertext.length + 1 + (ready.carry - 1) = ciphertext.length + ready.carry := by
      omega
    rw [total]
    exact aligned

/-- A buffer keeps the chain at the end of the stream. -/
theorem Follows.pass {encipher : Bytes → Bytes} {chain : Chain} {stream : Bytes} {size : Nat}
    (width : ∀ block : Bytes, block.length = size → (encipher block).length = size)
    (fits : chain.Fits size) (follows : Follows encipher chain stream) (direction : Direction)
    (buffer : Bytes) :
    let passed := Keystream.passBytes encipher (.ciphertext direction) chain buffer
    Follows encipher passed.1 (stream ++ direction.ciphertext buffer passed.2) :=
  pass_keeps encipher (.ciphertext direction) (fun chain _ stream => Follows encipher chain stream)
    width (fun _ _ _ byte fits follows => follows.passByte width fits direction byte) fits buffer
    [] _
    follows

/-- A buffer keeps the place in the message. -/
theorem Tracks.pass {encipher : Bytes → Bytes} {iv plaintext ciphertext : Bytes} {chain : Chain}
    (width : ∀ block : Bytes, block.length = iv.length → (encipher block).length = iv.length)
    (fits : chain.Fits iv.length) (tracks : Tracks encipher iv plaintext ciphertext chain)
    (direction : Direction) (buffer : Bytes) :
    let passed := Keystream.passBytes encipher (.ciphertext direction) chain buffer
    Tracks encipher iv (plaintext ++ direction.plaintext buffer passed.2)
      (ciphertext ++ direction.ciphertext buffer passed.2) passed.1 :=
  pass_keeps encipher (.ciphertext direction)
    (fun chain plain secret => Tracks encipher iv plain secret chain) width
    (fun _ _ _ byte fits tracks => tracks.passByte width fits direction byte) fits buffer _ _
    tracks

/-- A realignment goes through, and puts the end of the stream into the chaining
value at a block boundary. -/
theorem Follows.realign {m : Type → Type} [Monad m] [LawfulMonad m] {encipher : Bytes → Bytes}
    {chain : Chain} {stream : Bytes} {size : Nat} (fits : chain.Fits size)
    (follows : Follows encipher chain stream) :
    ∃ aligned, Gives (CipherFeedback.realign chain : Checked m Chain) aligned ∧
      aligned.Fits size ∧ aligned.carry = 0 ∧ Follows encipher aligned stream := by
  by_cases boundary : chain.carry = 0
  · rw [CipherFeedback.realign, if_pos boundary]
    exact ⟨chain, Gives.pure _, fits, boundary, follows⟩
  · have ends := follows.inside boundary
    obtain ⟨width, given⟩ := realign_gives (m := m) fits boundary
    refine ⟨_, given, ?_, rfl, ?_⟩
    · exact ⟨width, fits.previous, fits.counter, fits.scratch, fits.positive⟩
    · constructor
      · intro
        rw [← List.take_append_drop (used chain) chain.previous, List.append_assoc] at ends
        exact (List.suffix_append _ _).trans ends
      · exact fun inside => absurd rfl inside
      · exact fun inside => absurd rfl inside

end CipherEngine.CipherFeedback
