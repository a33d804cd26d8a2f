import CipherEngine.Proofs.Handle.CipherFeedbackRun
import CipherEngine.Proofs.Handle.Indistinct

/-!
# Resynchronisation of cipher feedback

The ciphertext stream of a handle is its last chaining value to be set, and all
ciphertext since. Between two requests the handle keeps the end of that stream:
at a block boundary in the chaining value, inside a block in the previous chaining
value and the front of the current one. A realignment puts it into the chaining
value, and then no request tells the handle from one of the same keying on which
that end has just been set.
-/
namespace CipherEngine.LiveHandle

open CipherFeedback Keystream

/-- The machine keeps the end of the stream. -/
theorem keeps_follows {encipher : Bytes → Bytes} {size : Nat} (iv : Bytes)
    (width : ∀ block : Bytes, block.length = size → (encipher block).length = size)
    (direction : Direction) :
    Keeps encipher size direction (.ciphertext direction) fun chain _ ciphertext =>
      Follows encipher chain (iv ++ ciphertext) := by
  intro chain after plaintext ciphertext buffer fits follows passed same
  rw [← List.append_assoc]
  exact (follows.pass width fits direction buffer).congr (.of_settle same.symm)

variable {m : Type → Type}

/-- A handle at a block boundary is indistinct from one keyed alike on which its chaining
value has just been set. -/
theorem KeyedAlike.indistinct [Monad m] [LawfulMonad m] {handle twin : LiveHandle m}
    (alike : handle.KeyedAlike twin) (feedback : handle.mode = .cfb) (fitted : handle.Fitted)
    (twinFitted : twin.Fitted) (boundary : handle.carry = 0) :
    handle.Indistinct (coupling m) False (twin.afterIv (handle.arena.read .iv)).1 := by
  have width : (handle.arena.read .iv).length = twin.blockLength := by
    rw [Arena.length_read, fitted.size_eq (by decide), blockLength, blockLength, alike.algorithm]
  refine ⟨⟨alike.id, alike.mode, alike.flags, alike.keyed, boundary.symm, ?_⟩, ?_, fitted,
    twinFitted.of_sameShape (afterIv_sameShape twin _), fun _ => boundary, fun counted => ?_⟩
  · intro slot visible
    cases slot with
    | live => exact (read_afterIv twin _ (by decide)).trans alike.live
    | template => exact (read_afterIv twin _ (by decide)).trans alike.template
    | iv =>
      have set := congrArg Chain.iv (twinFitted.chain_afterIv (handle.arena.read .iv))
      rwa [Bytes.fit_whole width] at set
    | previous => exact absurd boundary visible
    | counter | scratch => exact False.elim visible
  · change handle.pin.algorithm.Matches (coupling m) twin.pin.algorithm
    rw [alike.algorithm]
    exact Algorithm.Matches.refl _
  · rw [feedback] at counted
    cases counted

/-- A handle that stands where a run has led it is keyed as it was. -/
theorem Stands.keyedAlike {origin handle twin : LiveHandle m}
    {Holds : Chain → (plaintext ciphertext : Bytes) → Prop} {finished : List Exchange}
    (stands : origin.Stands Holds handle finished) (alike : origin.KeyedAlike twin) :
    handle.KeyedAlike twin := by
  obtain ⟨id, algorithm, mode, flags, keyed, live, template⟩ := alike
  refine ⟨?_, ?_, ?_, ?_, ?_, ?_, ?_⟩
  · rw [stands.shape.pin, id]
  · rw [stands.shape.pin, algorithm]
  · rw [stands.shape.mode, mode]
  · rw [stands.flags, flags]
  · rw [stands.keyed, keyed]
  · rw [stands.live, live]
  · rw [stands.template, template]

variable [Monad m] [LawfulMonad m] {functions : BlockFunctions}

/-- A realignment keeps the end of the stream. -/
theorem realigns_follows (encipher : Bytes → Bytes) (size : Nat) (iv : Bytes) :
    Realigns m size fun chain _ ciphertext => Follows encipher chain (iv ++ ciphertext) :=
  fun _ _ _ fits follows => follows.realign fits

/-- After a new chaining value, a run of calls and realignments follows the stream. -/
theorem respondAll_follows {handle : LiveHandle m} (fitted : handle.Fitted)
    (feedback : handle.mode = .cfb) (computes : handle.pin.algorithm.Computes functions)
    (iv : Bytes) {requests : List Request}
    (allowed : ∀ request ∈ requests, request.call?.isSome = true ∨ request = .syncFeedback) :
    ∃ last outcomes,
      Yields ((Handle.live (handle.afterIv iv).1).respondAll requests) (.live last, outcomes) ∧
      List.Forall₂ (Request.Served handle.keyed) requests outcomes ∧
      (handle.afterIv iv).1.Stands (fun chain _ ciphertext =>
        Follows (functions.encrypt (handle.arena.read .live)) chain
          (Bytes.fit handle.blockLength iv ++ ciphertext)) last (exchanges requests outcomes) := by
  have chains : handle.mode.chainsBlocks = true := by rw [feedback]; rfl
  have live : (handle.afterIv iv).1.arena.read .live = handle.arena.read .live :=
    read_afterIv handle iv (by decide)
  refine Stands.run (fitted.of_sameShape (afterIv_sameShape handle iv)) computes ?_ ?_
  · intro request member
    rcases allowed request member with call | sync
    · obtain ⟨call, asked⟩ := Option.isSome_iff_exists.mp call
      refine Or.inl ⟨call, .ciphertext call.direction, asked, ?_, ?_⟩
      · change handle.mode.feedback? call.direction = _
        rw [feedback]
        rfl
      · rw [live]
        exact keeps_follows _ (fitted.length_encrypt chains computes) call.direction
    · exact Or.inr ⟨sync, realigns_follows _ _ _⟩
  · apply stands_afterIv handle (fitted.positive chains) iv
    have start := congrArg Chain.iv (fitted.chain_afterIv iv)
    constructor
    · intro
      simpa only [start, List.append_nil] using List.suffix_refl _
    · exact fun inside => absurd rfl inside
    · exact fun inside => absurd rfl inside

/-- After a new chaining value, calls and realignments keep the handle at the end of the
ciphertext stream: at a block boundary its chaining value is the last block of the
stream, inside a block the front of it is the end of the stream and the previous
chaining value is the block before that. A realignment leads to a block boundary, and
whatever is asked from then on looks the same as on a handle keyed alike on which the
last block of the stream has just been set. -/
theorem cipherFeedback_resynchronises {handle : LiveHandle m} (reachable : handle.Reachable)
    (feedback : handle.mode = .cfb) (enabled : handle.flags.syncEnabled = true)
    (computes : handle.pin.algorithm.Computes functions) (iv : Bytes) {requests : List Request}
    (allowed : ∀ request ∈ requests, request.call?.isSome = true ∨ request = .syncFeedback) :
    ∃ last set outcomes,
      Yields ((Handle.live handle).respondAll (.setIv iv :: requests))
        (.live last, set :: outcomes) ∧
      List.Forall₂ (Request.Served handle.keyed) requests outcomes ∧
      let size := handle.blockLength
      let stream := Bytes.fit size iv ++ Exchange.ciphertexts (exchanges requests outcomes)
      (last.carry = 0 → last.arena.read .iv = Bytes.ending size stream) ∧
      (last.carry ≠ 0 → last.carry < size ∧
        (last.arena.read .iv).take (size - last.carry) =
          Bytes.ending (size - last.carry) stream ∧
        last.arena.read .previous =
          Bytes.ending size (stream.take (stream.length - (size - last.carry)))) ∧
      ∃ synced, Yields (last.respond .syncFeedback) (synced.answered (.done (.ok ())) []) ∧
        synced.carry = 0 ∧ synced.arena.read .iv = Bytes.ending size stream ∧
        ∀ twin : LiveHandle m, twin.Reachable → handle.KeyedAlike twin → ∀ later,
          observed <$> (Handle.live synced).respondAll later =
            observed <$> (Handle.live (twin.afterIv (Bytes.ending size stream)).1).respondAll
              later := by
  have fitted := reachable.fitted
  have set : Yields (handle.respond (.setIv iv))
      ((handle.afterIv iv).1.answered (.done (.ok ())) (handle.afterIv iv).2) :=
    Yields.of_eq (fitted.respond_setIv iv)
  obtain ⟨last, outcomes, yielded, served, stands⟩ :=
    respondAll_follows fitted feedback computes iv allowed
  have originFitted := fitted.of_sameShape (afterIv_sameShape handle iv)
  have blocks {other : LiveHandle m} (shape : (handle.afterIv iv).1.SameShape other) {slot : Slot}
      (block : slot ≠ .live ∧ slot ≠ .template) :
      (other.arena.read slot).length = handle.blockLength := by
    rw [Arena.length_read, (originFitted.of_sameShape shape).size_eq block, blockLength, shape.pin]
    rfl
  have follows := stands.holds
  refine ⟨last, _, outcomes, Handle.respondAll_cons set yielded, served, ?_, ?_, ?_⟩
  · intro boundary
    exact Bytes.eq_ending (blocks stands.shape (by decide)) (follows.boundary boundary)
  · intro inside
    have front : used last.chain = handle.blockLength - last.carry := by
      rw [used, Chain.blockLength]
      exact congrArg (· - last.carry) (blocks stands.shape (by decide))
    have suffix := follows.inside inside
    have width :
        (last.chain.iv.take (used last.chain)).length = handle.blockLength - last.carry := by
      have whole : last.chain.iv.length = handle.blockLength := blocks stands.shape (by decide)
      rw [List.length_take, front]
      omega
    refine ⟨stands.small, ?_, ?_⟩
    · have ends := Bytes.eq_ending width ((List.suffix_append _ _).trans suffix)
      rwa [front] at ends
    · have before := Bytes.eq_ending_take (blocks stands.shape (by decide)) suffix
      rwa [width] at before
  · obtain ⟨synced, answered, _, boundary, later⟩ :=
      stands.sync originFitted (realigns_follows _ _ _)
    have ended := boundary enabled
    have ends := Bytes.eq_ending (blocks later.shape (by decide)) (later.holds.boundary ended)
    refine ⟨synced, answered, ended, ends, fun twin twinReachable alike requests => ?_⟩
    have originAlike : (handle.afterIv iv).1.KeyedAlike twin := by
      refine ⟨alike.id, alike.algorithm, alike.mode, alike.flags, alike.keyed, ?_, ?_⟩
      · rw [read_afterIv handle iv (by decide), alike.live]
      · rw [read_afterIv handle iv (by decide), alike.template]
    have indistinct := (later.keyedAlike originAlike).indistinct (later.shape.mode.trans feedback)
      (originFitted.of_sameShape later.shape) twinReachable.fitted ended
    rw [← ends]
    exact indistinct.observed_respondAll requests

/-- The specimen in cipher feedback, realigned after its calls and then called again. -/
theorem cipherFeedback_resynchronises_specimen :
    ∃ last set outcomes,
      Yields ((Handle.live (Specimen.keyed .cfb { syncEnabled := true })).respondAll
        (.setIv [1, 2, 3] :: (Specimen.calls ++ .syncFeedback :: Specimen.calls)))
        (.live last, set :: outcomes) ∧
      (last.carry = 0 → last.arena.read .iv = Bytes.ending 16 (Bytes.fit 16 [1, 2, 3] ++
        Exchange.ciphertexts
          (exchanges (Specimen.calls ++ .syncFeedback :: Specimen.calls) outcomes))) := by
  obtain ⟨last, set, outcomes, yielded, _, boundary, _⟩ :=
    cipherFeedback_resynchronises
      (Specimen.reachable_keyed .cfb { syncEnabled := true } rfl rfl) rfl rfl Specimen.computes
      [1, 2, 3] (by decide : ∀ request ∈ Specimen.calls ++ .syncFeedback :: Specimen.calls,
        request.call?.isSome = true ∨ request = .syncFeedback)
  exact ⟨last, set, outcomes, yielded, boundary⟩

end CipherEngine.LiveHandle
