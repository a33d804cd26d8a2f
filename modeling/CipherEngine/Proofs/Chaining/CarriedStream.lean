import Mathlib.Data.List.GetD
import CipherEngine.Proofs.Chaining.CiphertextStream
import CipherEngine.Proofs.Chaining.IteratedStream

/-!
# Keystream that is carried over

In the feedback modes the end of the chaining value may be keystream that an earlier
call has left. Nothing in the chain says how that keystream was made. So under another
cipher it is still used up first, and only what follows is made by that cipher: from
the chaining value again in output feedback, and in cipher feedback from the block of
ciphertext that the carried bytes complete.

`Mode.padAt` is the keystream that this comes to, in both modes.
-/
namespace CipherEngine

namespace Keystream

/-- Each byte of the ciphertext is its byte of the plaintext, masked with what stands at its
index. -/
def Masks (pad : (index : Nat) → UInt8) (plaintext ciphertext : Bytes) : Prop :=
  plaintext.length = ciphertext.length ∧
    ∀ index < ciphertext.length,
      ciphertext.getD index 0 = plaintext.getD index 0 ^^^ pad index

variable {pad : (index : Nat) → UInt8} {plaintext ciphertext : Bytes}

/-- Nothing is masked by nothing. -/
theorem Masks.nil (pad : (index : Nat) → UInt8) : Masks pad [] [] :=
  ⟨rfl, fun index inside => absurd inside (Nat.not_lt_zero index)⟩

/-- Only what stands at the indices of the message matters. -/
theorem Masks.congr (masks : Masks pad plaintext ciphertext) {other : (index : Nat) → UInt8}
    (same : ∀ index < ciphertext.length, pad index = other index) :
    Masks other plaintext ciphertext := by
  refine ⟨masks.1, fun index inside => ?_⟩
  rw [← same index inside]
  exact masks.2 index inside

/-- The same mask takes the ciphertext back to the plaintext. -/
theorem Masks.symm (masks : Masks pad plaintext ciphertext) : Masks pad ciphertext plaintext := by
  refine ⟨masks.1.symm, fun index inside => ?_⟩
  rw [masks.2 index (masks.1 ▸ inside), UInt8.xor_assoc, UInt8.xor_self, UInt8.xor_zero]

/-- A message has one ciphertext under a mask. -/
theorem Masks.unique {other : Bytes} (masks : Masks pad plaintext ciphertext)
    (again : Masks pad plaintext other) : ciphertext = other := by
  refine List.ext_getElem (masks.1.symm.trans again.1) fun index inside within => ?_
  have byte := (masks.2 index inside).trans (again.2 index within).symm
  rwa [List.getD_eq_getElem _ _ inside, List.getD_eq_getElem _ _ within] at byte

/-- A message may go on with what stands at the indices that follow. -/
theorem Masks.append (masks : Masks pad plaintext ciphertext) {later secret : Bytes}
    (continued : Masks (fun index => pad (ciphertext.length + index)) later secret) :
    Masks pad (plaintext ++ later) (ciphertext ++ secret) := by
  refine ⟨by rw [List.length_append, List.length_append, masks.1, continued.1], ?_⟩
  intro index inside
  by_cases earlier : index < ciphertext.length
  · rw [List.getD_append _ _ _ _ earlier, List.getD_append _ _ _ _ (masks.1 ▸ earlier)]
    exact masks.2 index earlier
  · obtain ⟨place, rfl⟩ := Nat.exists_eq_add_of_le (Nat.not_lt.mp earlier)
    have within : place < secret.length := by
      rw [List.length_append] at inside
      omega
    rw [List.getD_append_right _ _ _ _ (Nat.le_add_right _ _),
      List.getD_append_right _ _ _ _ (masks.1 ▸ Nat.le_add_right _ _), masks.1,
      Nat.add_sub_cancel_left]
    exact continued.2 place within

/-- One more byte, in either direction. -/
theorem Masks.passed (masks : Masks pad plaintext ciphertext) (direction : Direction)
    {byte output : UInt8} (masked : output = byte ^^^ pad ciphertext.length) :
    Masks pad (plaintext ++ direction.plaintext [byte] [output])
      (ciphertext ++ direction.ciphertext [byte] [output]) := by
  apply masks.append
  have back : byte = output ^^^ pad ciphertext.length := by
    rw [masked, UInt8.xor_assoc, UInt8.xor_self, UInt8.xor_zero]
  cases direction <;> refine ⟨rfl, fun index inside => ?_⟩ <;>
    obtain rfl := Nat.lt_one_iff.mp inside
  · exact masked
  · exact back

end Keystream

open Keystream

/-- The block that is encrypted into a keystream block behind the carry: in output feedback the
chaining value, encrypted once for every block before, and in cipher feedback the block that
stands there in the ciphertext, with what the chaining value already held of it. -/
def Mode.source (mode : Mode) (encipher : Bytes → Bytes) (iv : Bytes) (carry : Nat)
    (ciphertext : Bytes) (number : Nat) : Bytes :=
  match mode with
  | .ofb => encipher^[number] iv
  | _ => Bytes.window (iv.length * number) iv.length (iv.take (iv.length - carry) ++ ciphertext)

/-- The keystream byte at an index of a message: of the end of the chaining value as far as the
carry goes, and behind it of an encrypted block. -/
def Mode.padAt (mode : Mode) (encipher : Bytes → Bytes) (iv : Bytes) (carry : Nat)
    (ciphertext : Bytes) (index : Nat) : UInt8 :=
  if index < carry then iv.getD (iv.length - carry + index) 0
  else
    (encipher (mode.source encipher iv carry ciphertext ((index - carry) / iv.length))).getD
      ((index - carry) % iv.length) 0

variable {encipher : Bytes → Bytes} {iv : Bytes} {carry : Nat}

/-- Where nothing is carried, the chaining value is the first block that is encrypted. -/
theorem Mode.source_zero (mode : Mode) (encipher : Bytes → Bytes) (iv ciphertext : Bytes) :
    mode.source encipher iv 0 ciphertext 0 = iv := by
  cases mode <;> simp [source, Bytes.window]

/-- The first keystream byte is that of the encrypted chaining value, unless something is carried
and differs. -/
theorem Mode.padAt_first_iff (mode : Mode) (encipher : Bytes → Bytes) (iv : Bytes) (carry : Nat)
    (ciphertext : Bytes) :
    mode.padAt encipher iv carry ciphertext 0 = (encipher iv).getD 0 0 ↔
      carry = 0 ∨ iv.getD (iv.length - carry) 0 = (encipher iv).getD 0 0 := by
  by_cases none : carry = 0
  · rw [none, padAt, if_neg (Nat.lt_irrefl 0), Nat.sub_zero, Nat.zero_div, Nat.zero_mod,
      source_zero]
    exact iff_of_true rfl (.inl rfl)
  · rw [padAt, if_pos (Nat.pos_of_ne_zero none), Nat.add_zero]
    exact (or_iff_right none).symm

namespace CipherFeedback

/-- Where a chain stands in a message that began with so many bytes of the chaining value
carried. As long as they last, each of them has given way to its ciphertext; and then the block
that this makes is the chaining value of the rest of the message. -/
inductive Resumes (encipher : Bytes → Bytes) (iv : Bytes) (carry : Nat) :
    Chain → (plaintext ciphertext : Bytes) → Prop where
  | carried {chain : Chain} {plaintext ciphertext : Bytes} :
    chain.iv = iv.take (iv.length - carry) ++ ciphertext ++
      iv.drop (iv.length - carry + ciphertext.length) →
    ciphertext.length + chain.carry = carry →
    Masks (fun index => iv.getD (iv.length - carry + index) 0) plaintext ciphertext →
      Resumes encipher iv carry chain plaintext ciphertext
  | renewed {chain : Chain} {plaintext ciphertext later secret : Bytes} :
    ciphertext.length = carry →
    Masks (fun index => iv.getD (iv.length - carry + index) 0) plaintext ciphertext →
    Tracks encipher (iv.take (iv.length - carry) ++ ciphertext) later secret chain →
      Resumes encipher iv carry chain (plaintext ++ later) (ciphertext ++ secret)

/-- A chain is at the beginning of a message with what it carries. -/
theorem Resumes.start (encipher : Bytes → Bytes) (chain : Chain) :
    Resumes encipher chain.iv chain.carry chain [] [] := by
  refine .carried ?_ (Nat.zero_add _) (Masks.nil _)
  rw [List.append_nil, List.length_nil, Nat.add_zero, List.take_append_drop]

/-- Chains that are alike stand at the same place. -/
theorem Resumes.congr {chain other : Chain} {plaintext ciphertext : Bytes}
    (resumes : Resumes encipher iv carry chain plaintext ciphertext) (alike : Alike chain other) :
    Resumes encipher iv carry other plaintext ciphertext := by
  cases resumes with
  | carried value left masks =>
    exact .carried (alike.iv.symm.trans value) (alike.carry ▸ left) masks
  | renewed whole masks tracks => exact .renewed whole masks (tracks.congr alike)

/-- While the carry lasts, a byte is masked with the next carried byte and its ciphertext takes
the place. -/
theorem Resumes.passCarried {chain : Chain} {plaintext ciphertext : Bytes}
    (few : carry ≤ iv.length)
    (value : chain.iv = iv.take (iv.length - carry) ++ ciphertext ++
      iv.drop (iv.length - carry + ciphertext.length))
    (left : ciphertext.length + chain.carry = carry)
    (masks : Masks (fun index => iv.getD (iv.length - carry + index) 0) plaintext ciphertext)
    (inside : chain.carry ≠ 0) (direction : Direction) (byte : UInt8) :
    let passed := Keystream.passByte encipher (.ciphertext direction) chain byte
    Resumes encipher iv carry passed.1 (plaintext ++ direction.plaintext [byte] [passed.2])
      (ciphertext ++ direction.ciphertext [byte] [passed.2]) := by
  let place := iv.length - carry + ciphertext.length
  have front : (iv.take (iv.length - carry) ++ ciphertext).length = place := by
    rw [List.length_append, List.length_take]
    omega
  have within : place < iv.length := by omega
  have rest : iv.drop place = iv.getD place 0 :: iv.drop (place + 1) := by
    rw [List.drop_eq_getElem_cons within, List.getD_eq_getElem _ _ within]
  rw [rest] at value
  have width : chain.blockLength = iv.length := by
    rw [Chain.blockLength, value, List.length_append, front, List.length_cons, List.length_drop]
    omega
  have here : chain.blockLength - chain.carry = place := by omega
  have ready : Keystream.refill encipher chain = chain := if_neg inside
  have pad : chain.iv.getD place 0 = iv.getD place 0 := by
    rw [value, List.getD_append_right _ _ _ _ (Nat.le_of_eq front), front, Nat.sub_self,
      List.getD_cons_zero]
  have written (secret : UInt8) : chain.iv.set place secret =
      iv.take (iv.length - carry) ++ ciphertext ++ secret :: iv.drop (place + 1) := by
    rw [value, List.set_append_right _ _ (Nat.le_of_eq front), front, Nat.sub_self,
      List.set_cons_zero]
  have secret := ciphertext_byte direction (iv.getD place 0) byte
  simp only [Keystream.passByte, ready, here, pad]
  refine .carried ?_ ?_ (masks.passed direction rfl)
  · rw [secret, written, List.length_append, List.length_singleton, List.append_assoc,
      List.append_assoc, List.append_assoc, List.singleton_append, ← Nat.add_assoc]
  · rw [secret, List.length_append, List.length_singleton]
    simp only
    omega

/-- One byte keeps the place in the message. -/
theorem Resumes.passByte {chain : Chain} {plaintext ciphertext : Bytes} {size : Nat}
    (sized : iv.length = size) (few : carry ≤ size)
    (width : ∀ block : Bytes, block.length = size → (encipher block).length = size)
    (fits : chain.Fits size) (resumes : Resumes encipher iv carry chain plaintext ciphertext)
    (direction : Direction) (byte : UInt8) :
    let passed := Keystream.passByte encipher (.ciphertext direction) chain byte
    Resumes encipher iv carry passed.1 (plaintext ++ direction.plaintext [byte] [passed.2])
      (ciphertext ++ direction.ciphertext [byte] [passed.2]) := by
  subst sized
  have renewedWidth {ciphertext : Bytes} (whole : ciphertext.length = carry) :
      (iv.take (iv.length - carry) ++ ciphertext).length = iv.length := by
    rw [List.length_append, List.length_take, whole]
    omega
  cases resumes with
  | carried value left masks =>
    by_cases boundary : chain.carry = 0
    · -- The carried bytes are used up, and their ciphertext has completed the block.
      rw [boundary, Nat.add_zero] at left
      have rest : iv.drop (iv.length - carry + ciphertext.length) = [] := by
        rw [left]
        exact List.drop_eq_nil_of_le (by omega)
      rw [rest, List.append_nil] at value
      have begun := Tracks.start encipher boundary
      rw [value] at begun
      exact .renewed left masks
        (begun.passByte ((renewedWidth left).symm ▸ width) ((renewedWidth left).symm ▸ fits)
          direction byte)
    · exact passCarried few value left masks boundary direction byte
  | renewed whole masks tracks =>
    have next := tracks.passByte ((renewedWidth whole).symm ▸ width)
      ((renewedWidth whole).symm ▸ fits) direction byte
    simp only [List.append_assoc]
    exact .renewed whole masks next

/-- A buffer keeps the place in the message. -/
theorem Resumes.pass {chain : Chain} {plaintext ciphertext : Bytes} {size : Nat}
    (sized : iv.length = size) (few : carry ≤ size)
    (width : ∀ block : Bytes, block.length = size → (encipher block).length = size)
    (fits : chain.Fits size) (resumes : Resumes encipher iv carry chain plaintext ciphertext)
    (direction : Direction) (buffer : Bytes) :
    let passed := passBytes encipher (.ciphertext direction) chain buffer
    Resumes encipher iv carry passed.1 (plaintext ++ direction.plaintext buffer passed.2)
      (ciphertext ++ direction.ciphertext buffer passed.2) :=
  pass_keeps encipher (.ciphertext direction) (Resumes encipher iv carry) width
    (fun _ _ _ byte fits resumes => resumes.passByte sized few width fits direction byte) fits
    buffer _ _ resumes

/-- The message is masked with the carried bytes, and from their end on with blocks that the
cipher has encrypted. -/
theorem Resumes.masks {chain : Chain} {plaintext ciphertext : Bytes} (few : carry ≤ iv.length)
    (resumes : Resumes encipher iv carry chain plaintext ciphertext) :
    Masks (Mode.cfb.padAt encipher iv carry ciphertext) plaintext ciphertext := by
  cases resumes with
  | carried _ left masks =>
    refine masks.congr fun index inside => ?_
    rw [Mode.padAt, if_pos (by omega)]
  | @renewed plaintext ciphertext later secret whole masks tracks =>
    have width : (iv.take (iv.length - carry) ++ ciphertext).length = iv.length := by
      rw [List.length_append, List.length_take, whole]
      omega
    have renewed : Masks _ later secret := tracks.enciphers
    apply Masks.append
    · refine masks.congr fun index inside => ?_
      rw [Mode.padAt, if_pos (whole ▸ inside)]
    · refine renewed.congr fun index _ => ?_
      have behind : ¬ ciphertext.length + index < carry := by omega
      rw [Mode.padAt, if_neg behind, width, ← whole, Nat.add_sub_cancel_left, Mode.source, whole,
        List.append_assoc]
      nofun

end CipherFeedback

namespace OutputFeedback

/-- The keystream from the carry on is the end of the chaining value and then its encryptions. -/
theorem padAt_eq (filled : 0 < iv.length) (few : carry ≤ iv.length) (encipher : Bytes → Bytes)
    (ciphertext : Bytes) (index : Nat) :
    padAt encipher iv (iv.length - carry + index) =
      Mode.ofb.padAt encipher iv carry ciphertext index := by
  rw [Mode.padAt]
  by_cases inside : index < carry
  · rw [if_pos inside, padAt_of_first (by omega)]
  · have behind : iv.length - carry + index = iv.length + (index - carry) := by omega
    rw [if_neg inside, behind, padAt_of_encrypted filled, Function.iterate_succ_apply', Mode.source]

/-- Where a chain stands in a message that began with so many bytes of the chaining value
carried: the message is masked with the keystream from there on, and the chain is at its end. -/
structure Resumes (encipher : Bytes → Bytes) (iv : Bytes) (carry : Nat) (chain : Chain)
    (plaintext ciphertext : Bytes) : Prop where
  place : At encipher iv (iv.length - carry + ciphertext.length) chain
  bytes : Masks (fun index => padAt encipher iv (iv.length - carry + index)) plaintext ciphertext

/-- A chain is at the beginning of a message with what it carries. -/
theorem Resumes.start (encipher : Bytes → Bytes) {chain : Chain}
    (few : chain.carry ≤ chain.iv.length) :
    Resumes encipher chain.iv chain.carry chain [] [] :=
  ⟨At.start encipher few, Masks.nil _⟩

/-- Chains that are alike stand at the same place. -/
theorem Resumes.congr {chain other : Chain} {plaintext ciphertext : Bytes}
    (resumes : Resumes encipher iv carry chain plaintext ciphertext) (alike : Alike chain other) :
    Resumes encipher iv carry other plaintext ciphertext :=
  ⟨resumes.place.congr alike, resumes.bytes⟩

/-- One byte is masked with the keystream at its place, in either direction, and leaves the chain
at the next. -/
theorem Resumes.passByte {chain : Chain} {plaintext ciphertext : Bytes} {size : Nat}
    (sized : iv.length = size)
    (width : ∀ block : Bytes, block.length = size → (encipher block).length = size)
    (fits : chain.Fits size) (resumes : Resumes encipher iv carry chain plaintext ciphertext)
    (direction : Direction) (byte : UInt8) :
    let passed := Keystream.passByte encipher .keystream chain byte
    Resumes encipher iv carry passed.1 (plaintext ++ direction.plaintext [byte] [passed.2])
      (ciphertext ++ direction.ciphertext [byte] [passed.2]) := by
  intro passed
  obtain ⟨masked, next⟩ := resumes.place.passByte sized width fits byte
  have single : (direction.ciphertext [byte] [passed.2]).length = 1 := by
    cases direction <;> rfl
  refine ⟨?_, resumes.bytes.passed direction masked⟩
  rw [List.length_append, single, ← Nat.add_assoc]
  exact next

/-- A buffer keeps the place in the message. -/
theorem Resumes.pass {chain : Chain} {plaintext ciphertext : Bytes} {size : Nat}
    (sized : iv.length = size)
    (width : ∀ block : Bytes, block.length = size → (encipher block).length = size)
    (fits : chain.Fits size) (resumes : Resumes encipher iv carry chain plaintext ciphertext)
    (direction : Direction) (buffer : Bytes) :
    let passed := passBytes encipher .keystream chain buffer
    Resumes encipher iv carry passed.1 (plaintext ++ direction.plaintext buffer passed.2)
      (ciphertext ++ direction.ciphertext buffer passed.2) :=
  pass_keeps encipher .keystream (Resumes encipher iv carry) width
    (fun _ _ _ byte fits resumes => resumes.passByte sized width fits direction byte) fits buffer
    _ _ resumes

/-- The message is masked with the carried bytes, and from their end on with blocks that the
cipher has encrypted. -/
theorem Resumes.masks {chain : Chain} {plaintext ciphertext : Bytes} (filled : 0 < iv.length)
    (few : carry ≤ iv.length) (resumes : Resumes encipher iv carry chain plaintext ciphertext) :
    Masks (Mode.ofb.padAt encipher iv carry ciphertext) plaintext ciphertext :=
  resumes.bytes.congr fun index _ => padAt_eq filled few encipher ciphertext index

end OutputFeedback

end CipherEngine
