import CipherEngine.Proofs.Chaining.CarriedStream
import CipherEngine.Proofs.Handle.CounterRun
import CipherEngine.Proofs.Handle.Verdict

/-!
# Keystream across a key

A new chaining value, a reset and a realignment end the carry of a feedback mode. A key
does not: the rest of the keystream block that an earlier key has made stays in the
chaining value and is used up first, and only behind it the blocks are encrypted under
the new key. In counter mode nothing is carried, so there every block is encrypted under
the new key.

What a handle carries is known from the handle before the key, and whatever is asked
after it, the bytes that are carried at any time are the only ones that the key need not
have made.
-/
namespace CipherEngine

open Keystream

/-- The machine of cipher feedback keeps the place in a message that began with a carry. -/
theorem CipherFeedback.keeps_resumes {encipher : Bytes → Bytes} {iv : Bytes} {size carry : Nat}
    (sized : iv.length = size) (few : carry ≤ size)
    (width : ∀ block : Bytes, block.length = size → (encipher block).length = size) :
    Mode.cfb.Keeps encipher size fun chain finished =>
      Resumes encipher iv carry chain (Exchange.plaintexts finished)
        (Exchange.ciphertexts finished) := by
  refine .of_streams ?_ fun alike resumes => resumes.congr alike
  intro chain plaintext ciphertext direction feedback carries fits resumes input
  cases carries
  exact resumes.pass sized few width fits direction input

/-- And so does the machine of output feedback. -/
theorem OutputFeedback.keeps_resumes {encipher : Bytes → Bytes} {iv : Bytes} {size : Nat}
    (sized : iv.length = size)
    (width : ∀ block : Bytes, block.length = size → (encipher block).length = size) (carry : Nat) :
    Mode.ofb.Keeps encipher size fun chain finished =>
      Resumes encipher iv carry chain (Exchange.plaintexts finished)
        (Exchange.ciphertexts finished) := by
  refine .of_streams ?_ fun alike resumes => resumes.congr alike
  intro chain plaintext ciphertext direction feedback carries fits resumes input
  cases carries
  exact resumes.pass sized width fits direction input

namespace LiveHandle

variable {m : Type → Type} [Monad m] [LawfulMonad m] {functions : BlockFunctions}

/-- A handle in a feedback mode carries less than a block, if its cipher computes functions. -/
theorem Reachable.small {handle : LiveHandle m} (reachable : handle.Reachable)
    (computes : handle.pin.algorithm.Computes functions)
    (feeds : handle.mode = .cfb ∨ handle.mode = .ofb) : handle.carry < handle.blockLength := by
  induction reachable with
  | opened given =>
    have fitted := Fitted.opened given
    obtain ⟨_, _, _, rfl, _⟩ := Handle.openOn_gives given
    exact fitted.positive (Mode.chainsBlocks_of_feeds feeds)
  | @requested handle next request outcome earlier returned left inductionHypothesis =>
    have shape := (LeftBy.of_returned returned left).shape
    rw [shape.pin] at computes
    rw [shape.mode] at feeds
    have small := inductionHypothesis computes feeds
    cases asked : request.call? with
    | none =>
      have short := returned _ (respond_short_of_silent (fun _ => small) asked) _ left
      exact short (shape.mode ▸ Mode.chainsBlocks_of_feeds feeds)
    | some call =>
      obtain ⟨feedback, carries⟩ := Mode.exists_feedback feeds call.direction
      obtain ⟨after, given, fits, _⟩ :=
        transform_feedback earlier.fitted computes small carries call.input
      obtain ⟨same, _, _, yielded, _, ends⟩ :=
        respond_transforms (Mode.free_of_feedback? carries) asked (length_pass _ _ _ _) given
      obtain rfl := returned _ yielded
      obtain rfl : same = next := Handle.live.inj left
      obtain ⟨rfl, _⟩ | ⟨rfl, _⟩ := ends
      · exact fits.carry
      · exact small

/-- In a feedback mode, a run that leaves the keystream alone is masked with what the handle
carries, and from its end on with blocks that are encrypted under the context of the handle. -/
theorem respondAll_resumes {handle : LiveHandle m} (fitted : handle.Fitted)
    (computes : handle.pin.algorithm.Computes functions)
    (feeds : handle.mode = .cfb ∨ handle.mode = .ofb) (small : handle.carry < handle.blockLength)
    {requests : List Request}
    (allowed : ∀ request ∈ requests, request.KeepsKeystream ∧
      (request = .syncFeedback → handle.flags.syncEnabled = false)) :
    ∃ last outcomes, Yields ((Handle.live handle).respondAll requests) (.live last, outcomes) ∧
      List.Forall₂ (Request.Served handle.keyed) requests outcomes ∧
      Masks
        (handle.mode.padAt (functions.encrypt (handle.arena.read .live)) (handle.arena.read .iv)
          handle.carry (Exchange.ciphertexts (exchanges requests outcomes)))
        (Exchange.plaintexts (exchanges requests outcomes))
        (Exchange.ciphertexts (exchanges requests outcomes)) := by
  let encipher := functions.encrypt (handle.arena.read .live)
  have sized : handle.chain.iv.length = handle.blockLength := (fitted.chain_fits small).iv
  have few : handle.chain.carry ≤ handle.chain.iv.length := sized.symm ▸ Nat.le_of_lt small
  have filled : 0 < handle.chain.iv.length :=
    sized.symm ▸ Nat.lt_of_le_of_lt (Nat.zero_le _) small
  have width := fitted.length_encrypt (Mode.chainsBlocks_of_feeds feeds) computes
  obtain feedback | feedback := feeds
  · have keeps := CipherFeedback.keeps_resumes sized (Nat.le_of_lt small) width
    rw [← feedback] at keeps
    obtain ⟨last, outcomes, yielded, served, resumes⟩ :=
      respondAll_feeds fitted computes (.inl feedback) small keeps
        (CipherFeedback.Resumes.start encipher handle.chain) allowed
    refine ⟨last, outcomes, yielded, served, ?_⟩
    rw [feedback]
    exact resumes.masks few
  · have keeps := OutputFeedback.keeps_resumes sized width handle.carry
    rw [← feedback] at keeps
    obtain ⟨last, outcomes, yielded, served, resumes⟩ :=
      respondAll_feeds fitted computes (.inr feedback) small keeps
        (OutputFeedback.Resumes.start encipher few) allowed
    refine ⟨last, outcomes, yielded, served, ?_⟩
    rw [feedback]
    exact resumes.masks filled few

/-- The handle right after a key was accepted: the context is that of the key, and all that the
keystream is taken from is as it was. -/
theorem Reachable.rekeyed {schedule : Bytes → Bytes} {earlier handle : LiveHandle m}
    (reachable : earlier.Reachable) {key : Bytes}
    (schedules : handle.pin.algorithm.Schedules schedule)
    (accepted : MayReturn (earlier.respond (.setKey key)) (handle.answered (.done (.ok ())) [])) :
    handle.arena.read .live = schedule key ∧ handle.arena.read .iv = earlier.arena.read .iv ∧
      handle.arena.read .counter = earlier.arena.read .counter ∧ handle.carry = earlier.carry := by
  rw [(LeftBy.of_returned accepted rfl).shape.pin] at schedules
  obtain ⟨keyed, rekeyed⟩ := reachable.fitted.rekeyed_of_accepted schedules accepted
  exact ⟨rekeyed.live keyed, rekeyed.blocks .iv (by decide), rekeyed.blocks .counter (by decide),
    rekeyed.carry⟩

/-- An accepted key leaves the chaining value, the counter and the carry. Whatever is asked after
it but another key, a run goes through wherever there is room. In counter mode its calls are
masked with blocks that are encrypted under the key. In the feedback modes the bytes that are
carried when it begins come first, as they stand in the chaining value, and only behind them
every byte is masked with a block that is encrypted under the key. So its first byte is masked
with the first of the encrypted chaining value exactly if nothing is carried, or what is carried
happens to begin with that byte. -/
theorem keys_leave_carried_keystream {schedule : Bytes → Bytes} {key : Bytes}
    {handle : LiveHandle m} (lastKeyed : handle.LastKeyed key) (keyed : handle.keyed = true)
    (schedules : handle.pin.algorithm.Schedules schedule)
    (computes : handle.pin.algorithm.Computes functions) :
    let encipher := functions.encrypt (schedule key)
    let iv := handle.arena.read .iv
    let counter := handle.arena.read .counter
    (∀ earlier : LiveHandle m, earlier.Reachable →
      MayReturn (earlier.respond (.setKey key)) (handle.answered (.done (.ok ())) []) →
        handle.arena.read .live = schedule key ∧ iv = earlier.arena.read .iv ∧
          counter = earlier.arena.read .counter ∧ handle.carry = earlier.carry) ∧
    (handle.mode.Rests → handle.carry = 0) ∧
    (handle.mode = .ctr → ∀ requests, (∀ request ∈ requests, request.KeepsCounter) →
      ∃ last outcomes, Yields ((Handle.live handle).respondAll requests) (.live last, outcomes) ∧
        List.Forall₂ (Request.Served true) requests outcomes ∧
        Exchange.AllMasked (Counter.padAt encipher counter) (exchanges requests outcomes)) ∧
    (handle.mode = .cfb ∨ handle.mode = .ofb →
      handle.carry < handle.blockLength ∧
      ∀ requests, (∀ request ∈ requests, request.KeepsKeystream ∧
          (request = .syncFeedback → handle.flags.syncEnabled = false)) →
      ∃ last outcomes, Yields ((Handle.live handle).respondAll requests) (.live last, outcomes) ∧
        List.Forall₂ (Request.Served true) requests outcomes ∧
        let plaintext := Exchange.plaintexts (exchanges requests outcomes)
        let ciphertext := Exchange.ciphertexts (exchanges requests outcomes)
        Masks (handle.mode.padAt encipher iv handle.carry ciphertext) plaintext ciphertext ∧
        (ciphertext ≠ [] →
          (ciphertext.getD 0 0 = plaintext.getD 0 0 ^^^ (encipher iv).getD 0 0 ↔
            handle.carry = 0 ∨
              iv.getD (handle.blockLength - handle.carry) 0 = (encipher iv).getD 0 0))) := by
  intro encipher iv counter
  have reachable := lastKeyed.reachable
  have fitted := reachable.fitted
  have context := (lastKeyed.contexts schedules keyed).2
  refine ⟨fun earlier reached accepted => reached.rekeyed schedules accepted,
    reachable.sound.boundary, fun counting requests keep => ?_, fun feeds => ?_⟩
  · have boundary : handle.carry = 0 := reachable.sound.boundary (by rw [counting]; decide)
    obtain ⟨last, outcomes, yielded, served, counted⟩ :=
      respondAll_counts fitted computes counting boundary keep
    have bytes := counted.bytes
    rw [context (by rw [counting]; rfl)] at bytes
    rw [keyed] at served
    exact ⟨last, outcomes, yielded, served, bytes⟩
  · have small := reachable.small computes feeds
    refine ⟨small, fun requests allowed => ?_⟩
    obtain ⟨last, outcomes, yielded, served, masks⟩ :=
      respondAll_resumes fitted computes feeds small allowed
    rw [context (Mode.chainsBlocks_of_feeds feeds)] at masks
    rw [keyed] at served
    refine ⟨last, outcomes, yielded, served, masks, fun filled => ?_⟩
    have sized : iv.length = handle.blockLength := (fitted.chain_fits small).iv
    rw [masks.2 0 (List.length_pos_iff.mpr filled), UInt8.xor_right_inj, ← sized]
    exact Mode.padAt_first_iff _ _ _ _ _

/-- The masking specimen in output feedback, with a second key after one byte: fifteen bytes are
carried across it, calls both ways go on with them, and then the second key makes the rest. -/
theorem keys_leave_carried_keystream_specimen :
    let earlier := ([.setKey [1, 1], .setIv [], .encryptInPlace [0]] : List Request).foldl
      LiveHandle.after (Specimen.masked .ofb {})
    let handle := earlier.after (.setKey [2])
    let requests : List Request :=
      [.encryptInPlace (Bytes.zeros 20), .syncFeedback, .mode, .decrypt [4] [0, 0]]
    handle.LastKeyed [2] ∧ handle.carry = 15 ∧
    ∃ last outcomes, Yields ((Handle.live handle).respondAll requests) (.live last, outcomes) ∧
      List.Forall₂ (Request.Served true) requests outcomes ∧
      Masks
        (Mode.ofb.padAt (Specimen.maskFunctions.encrypt (Bytes.fit 16 [2]))
          (1 :: 1 :: Bytes.zeros 14) 15 (Exchange.ciphertexts (exchanges requests outcomes)))
        (Exchange.plaintexts (exchanges requests outcomes))
        (Exchange.ciphertexts (exchanges requests outcomes)) := by
  intro earlier handle requests
  have reachable : earlier.Reachable := (Specimen.reachable_masked rfl rfl).afterAll _
  have lastKeyed : handle.LastKeyed [2] := reachable.lastKeyed [2]
  have carry : handle.carry = 15 := by decide +kernel
  have iv : handle.arena.read .iv = 1 :: 1 :: Bytes.zeros 14 := by decide +kernel
  have shape : (Specimen.masked .ofb {}).SameShape handle :=
    (sameShape_afterAll _ _).trans (sameShape_after earlier _)
  have algorithm : handle.pin.algorithm = Specimen.masking := by rw [shape.pin]; rfl
  have schedules : handle.pin.algorithm.Schedules (Bytes.fit 16) := by
    rw [algorithm]
    exact Specimen.masking_schedules
  have computes : handle.pin.algorithm.Computes Specimen.maskFunctions := by
    rw [algorithm]
    exact Specimen.masking_computes
  have allowed : ∀ request ∈ requests, request.KeepsKeystream ∧
      (request = .syncFeedback → handle.flags.syncEnabled = false) := by decide +kernel
  obtain ⟨_, feeds⟩ := (keys_leave_carried_keystream lastKeyed (by decide +kernel) schedules
    computes).2.2.2 (.inr shape.mode)
  obtain ⟨last, outcomes, yielded, served, masks, _⟩ := feeds requests allowed
  rw [iv, carry, shape.mode] at masks
  exact ⟨lastKeyed, carry, last, outcomes, yielded, served, masks⟩

/-- The first byte after the second key is masked with what the first key has made, and not with
the first byte of the chaining value under the second key. -/
theorem key_leaves_old_keystream :
    let earlier := ([.setKey [1, 1], .setIv [], .encryptInPlace [0]] : List Request).foldl
      LiveHandle.after (Specimen.masked .ofb {})
    let handle := earlier.after (.setKey [2])
    let sent := exchanges [.encryptInPlace [0]]
      (Id.run ((Handle.live handle).respondAll [.encryptInPlace [0]])).2
    let fresh := Specimen.maskFunctions.encrypt (Bytes.fit 16 [2]) (handle.arena.read .iv)
    earlier.Reachable ∧
      MayReturn (earlier.respond (.setKey [2])) (handle.answered (.done (.ok ())) []) ∧
      handle.mode = .ofb ∧ handle.arena.read .live = Bytes.fit 16 [2] ∧
      sent.map Exchange.output = [[1]] ∧ fresh.getD 0 0 = 3 ∧
      sent.map Exchange.output ≠ [Bytes.mask [0] fresh] := by
  intro earlier handle sent fresh
  have reachable : earlier.Reachable := (Specimen.reachable_masked rfl rfl).afterAll _
  have shape : (Specimen.masked .ofb {}).SameShape earlier := sameShape_afterAll _ _
  have algorithm : earlier.pin.algorithm = Specimen.masking := by rw [shape.pin]; rfl
  exact ⟨reachable, Specimen.masking_takes algorithm 2 [],
    (sameShape_after earlier _).mode.trans shape.mode, by decide +kernel, by decide +kernel,
    by decide +kernel, by decide +kernel⟩

end LiveHandle

end CipherEngine
