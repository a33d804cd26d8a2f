import CipherEngine.Proofs.Handle.FeedbackRun
import CipherEngine.Proofs.Specimen

/-!
# Cipher feedback over whole runs

From a new chaining value on, all calls to a handle in cipher feedback are one
message: the concatenated ciphertext is the concatenated plaintext enciphered
under that chaining value, however the calls cut it and whichever direction each
of them takes.
-/
namespace CipherEngine.LiveHandle

open CipherFeedback Keystream

/-- The machine keeps the place in a message. -/
theorem keeps_tracks {encipher : Bytes → Bytes} {iv : Bytes} {size : Nat}
    (sized : iv.length = size)
    (width : ∀ block : Bytes, block.length = size → (encipher block).length = size)
    (direction : Direction) :
    Keeps encipher size direction (.ciphertext direction) fun chain plaintext ciphertext =>
      Tracks encipher iv plaintext ciphertext chain := by
  subst sized
  intro chain after plaintext ciphertext buffer fits tracks passed same
  exact (tracks.pass width fits direction buffer).congr (.of_settle same.symm)

variable {m : Type → Type} [Monad m] [LawfulMonad m] {functions : BlockFunctions}

/-- After a new chaining value, a run of calls tracks the message it exchanges. -/
theorem respondAll_tracks {handle : LiveHandle m} (fitted : handle.Fitted)
    (feedback : handle.mode = .cfb) (computes : handle.pin.algorithm.Computes functions)
    (iv : Bytes) {requests : List Request}
    (calls : ∀ request ∈ requests, request.call?.isSome = true) :
    ∃ last outcomes,
      Yields ((Handle.live (handle.afterIv iv).1).respondAll requests) (.live last, outcomes) ∧
      List.Forall₂ (Request.Served handle.keyed) requests outcomes ∧
      Tracks (functions.encrypt (handle.arena.read .live)) (Bytes.fit handle.blockLength iv)
        (Exchange.plaintexts (exchanges requests outcomes))
        (Exchange.ciphertexts (exchanges requests outcomes)) last.chain := by
  have chains : handle.mode.chainsBlocks = true := by rw [feedback]; rfl
  have live : (handle.afterIv iv).1.arena.read .live = handle.arena.read .live :=
    read_afterIv handle iv (by decide)
  have begins : (handle.afterIv iv).1.Stands
      (fun chain plaintext ciphertext =>
        Tracks (functions.encrypt (handle.arena.read .live)) (Bytes.fit handle.blockLength iv)
          plaintext ciphertext chain) (handle.afterIv iv).1 [] := by
    apply stands_afterIv handle (fitted.positive chains) iv
    have start := fitted.chain_afterIv iv
    have boundary : (handle.afterIv iv).1.chain.carry = 0 := rfl
    have begun := Tracks.start (functions.encrypt (handle.arena.read .live)) boundary
    rwa [congrArg Chain.iv start] at begun
  obtain ⟨last, outcomes, yielded, served, ends⟩ :=
    Stands.run (fitted.of_sameShape (afterIv_sameShape handle iv)) computes
      (fun request member => by
        obtain ⟨call, asked⟩ := Option.isSome_iff_exists.mp (calls request member)
        refine Or.inl ⟨call, .ciphertext call.direction, asked, ?_, ?_⟩
        · change handle.mode.feedback? call.direction = _
          rw [feedback]
          rfl
        · rw [live]
          exact keeps_tracks (Bytes.length_fit _ _) (fitted.length_encrypt chains computes)
            call.direction)
      begins
  exact ⟨last, outcomes, yielded, served, ends.holds⟩

/-- In cipher feedback, after a new chaining value, every call goes through that has a
key and room, and all calls together encipher the plaintext they exchange to the
ciphertext they exchange. So another run of calls from the same chaining value, cut in
any other way and with any directions, exchanges the same ciphertext exactly if it
exchanges the same plaintext. -/
theorem cipherFeedback_enciphers {handle : LiveHandle m} (reachable : handle.Reachable)
    (feedback : handle.mode = .cfb) (computes : handle.pin.algorithm.Computes functions)
    (iv : Bytes) {requests : List Request}
    (calls : ∀ request ∈ requests, request.call?.isSome = true) :
    ∃ last set outcomes,
      Yields ((Handle.live handle).respondAll (.setIv iv :: requests)) (last, set :: outcomes) ∧
      List.Forall₂ (Request.Served handle.keyed) requests outcomes ∧
      Enciphers (functions.encrypt (handle.arena.read .live)) (Bytes.fit handle.blockLength iv)
        (Exchange.plaintexts (exchanges requests outcomes))
        (Exchange.ciphertexts (exchanges requests outcomes)) ∧
      ∀ others, (∀ request ∈ others, request.call?.isSome = true) →
        ∃ otherLast otherOutcomes,
          Yields ((Handle.live handle).respondAll (.setIv iv :: others))
            (otherLast, set :: otherOutcomes) ∧
          (Exchange.plaintexts (exchanges requests outcomes) =
              Exchange.plaintexts (exchanges others otherOutcomes) ↔
            Exchange.ciphertexts (exchanges requests outcomes) =
              Exchange.ciphertexts (exchanges others otherOutcomes)) := by
  have fitted := reachable.fitted
  have set : Yields (handle.respond (.setIv iv))
      ((handle.afterIv iv).1.answered (.done (.ok ())) (handle.afterIv iv).2) :=
    Yields.of_eq (fitted.respond_setIv iv)
  obtain ⟨last, outcomes, yielded, served, tracks⟩ :=
    respondAll_tracks fitted feedback computes iv calls
  refine ⟨.live last, _, outcomes, Handle.respondAll_cons set yielded, served, tracks.enciphers, ?_⟩
  intro others otherCalls
  obtain ⟨otherLast, otherOutcomes, otherYielded, _, otherTracks⟩ :=
    respondAll_tracks fitted feedback computes iv otherCalls
  refine ⟨.live otherLast, otherOutcomes, Handle.respondAll_cons set otherYielded, ?_⟩
  constructor
  · intro samePlaintext
    have again := otherTracks.enciphers
    rw [← samePlaintext] at again
    exact tracks.enciphers.ciphertext_unique again
  · intro sameCiphertext
    have again := otherTracks.enciphers
    rw [← sameCiphertext] at again
    exact tracks.enciphers.plaintext_unique again

/-- The specimen in cipher feedback, under a short chaining value. -/
theorem cipherFeedback_enciphers_specimen :
    ∃ last set outcomes,
      Yields ((Handle.live (Specimen.keyed .cfb {})).respondAll
        (.setIv [1, 2, 3] :: Specimen.calls)) (last, set :: outcomes) ∧
      List.Forall₂ (Request.Served true) Specimen.calls outcomes ∧
      Enciphers Standin.Flip.complement (Bytes.fit 16 [1, 2, 3])
        (Exchange.plaintexts (exchanges Specimen.calls outcomes))
        (Exchange.ciphertexts (exchanges Specimen.calls outcomes)) := by
  obtain ⟨last, set, outcomes, yielded, served, enciphers, _⟩ :=
    cipherFeedback_enciphers (Specimen.reachable_keyed .cfb {} rfl rfl) rfl Specimen.computes
      [1, 2, 3] (by decide : ∀ request ∈ Specimen.calls, request.call?.isSome = true)
  exact ⟨last, set, outcomes, yielded, served, enciphers⟩

end CipherEngine.LiveHandle
