import CipherEngine.Proofs.Handle.Delivery
import CipherEngine.Proofs.Handle.Settings
import CipherEngine.Proofs.Specimen

/-!
# Sessions

Two handles that were opened alike and given the same settings are in step, so
what one encrypts the other decrypts, message by message; and in the feedback
modes in any pieces.
-/
namespace CipherEngine.LiveHandle

variable {m : Type → Type} [Monad m] {functions : BlockFunctions}
  {keying : (context key : Bytes) → Keying}

/-- Paired handles without stealing are in step at the beginning of one message. -/
theorem Paired.inStep {sender receiver : LiveHandle m} (paired : sender.Paired functions receiver)
    (blocks : sender.mode ≠ .stream) (plain : sender.stealing = false)
    (boundary : sender.chain.carry = 0)
    (same : receiver.chain = { sender.chain with previous := receiver.chain.previous }) :
    sender.InStep functions receiver := by
  refine ⟨paired, blocks, plain, ?_, fun _ => boundary, ?_⟩
  · intro chains
    have positive := paired.fitted.positive chains
    change sender.chain.carry < _
    rw [boundary]
    exact positive
  · have otherBoundary : receiver.chain.carry = 0 := by
      rw [same]
      exact boundary
    apply Keystream.settle_eq_of_boundary otherBoundary boundary <;> rw [same]

variable [LawfulMonad m]

/-- Two handles are opened on one algorithm, in one mode that works on blocks, without
stealing and without MAC, and are given the same keys, chaining values and counters; the
last key is accepted, and under its context decryption undoes encryption. Then whatever
calls to encrypt the one goes through, decrypting the ciphertexts in their order with the
other succeeds and gives the messages back. In the feedback modes the ciphertext may also
be cut into other calls, which all succeed, and the message is the same. -/
theorem session_returns {mode : Mode} {sender receiver : LiveHandle m}
    (opened : sender.Opened mode false) (otherOpened : receiver.Opened mode false)
    (blocks : mode ≠ .stream) (algorithm : receiver.pin.algorithm = sender.pin.algorithm)
    (computes : sender.pin.algorithm.Computes functions)
    (keys : sender.pin.algorithm.Keys keying) {settings others : List Request}
    (same : SameSettings settings others)
    (accepted : (Keying.after keying (sender.arena.read .live, false)
      (settings.filterMap Request.key?)).2 = true)
    (invertible : functions.InvertibleUnder (Keying.after keying (sender.arena.read .live, false)
      (settings.filterMap Request.key?)).1 sender.blockLength)
    {sends : List Request} (encrypts : ∀ request ∈ sends, request.Encrypts) :
    ∃ last outcomes,
      Yields ((Handle.live sender).respondAll (settings ++ sends)) (last, outcomes) ∧
      List.Forall₂ (Request.Goes mode sender.blockLength) (settings ++ sends) outcomes ∧
      (∀ receives, List.Forall₂ Exchange.Feeds (exchanges (settings ++ sends) outcomes) receives →
        ∃ lastReceiver received,
          Yields ((Handle.live receiver).respondAll (others ++ receives))
            (lastReceiver, received) ∧
          List.Forall₂ Request.Passed (others ++ receives) received ∧
          exchanges (others ++ receives) received =
            (exchanges (settings ++ sends) outcomes).map Exchange.returned) ∧
      (mode = .cfb ∨ mode = .ofb → ∀ receives : List Request,
        (∀ request ∈ receives, request.Decrypts) →
        inputs receives = Exchange.ciphertexts (exchanges (settings ++ sends) outcomes) →
        ∃ lastReceiver received,
          Yields ((Handle.live receiver).respondAll (others ++ receives))
            (lastReceiver, received) ∧
          List.Forall₂ Request.Passed (others ++ receives) received ∧
          Exchange.plaintexts (exchanges (others ++ receives) received) =
            Exchange.plaintexts (exchanges (settings ++ sends) outcomes)) := by
  obtain ⟨senderMode, plain, _, _, unkeyed⟩ := opened.begins
  have otherKeys : receiver.pin.algorithm.Keys keying := by
    rw [algorithm]
    exact keys
  obtain ⟨ready, answers, holds, silent, sending⟩ :=
    opened.fitted.respondAll_settings keys same.sets
  obtain ⟨otherReady, otherAnswers, otherHolds, otherSilent, receiving⟩ :=
    otherOpened.fitted.respondAll_settings otherKeys same.otherSets
  rw [← unkeyed, ← holds.context] at accepted invertible
  have keyed : ready.keyed = true := accepted
  have readyMode : ready.mode = mode := holds.shape.mode.trans senderMode
  have readyPlain : ready.stealing = false := by
    simp [stealing, holds.flags, plain]
  obtain ⟨paired, boundary, alike⟩ := Paired.of_settings opened otherOpened algorithm computes
    same holds otherHolds invertible
  have inStep := paired.inStep (readyMode.symm ▸ blocks) readyPlain boundary alike
  have passes {receives : List Request} {received : List (Outcome m)}
      (passed : List.Forall₂ Request.Passed receives received) :
      List.Forall₂ Request.Passed (others ++ receives) (otherAnswers ++ received) := by
    apply forall₂_append_silent _ otherSilent passed
    intro request outcome quiet asked
    rw [quiet] at asked
    cases asked
  obtain ⟨last, lastReceiver, outcomes, yielded, judged, streams, delivered⟩ := inStep.run encrypts
  have goes : List.Forall₂ (Request.Goes mode sender.blockLength) sends outcomes := by
    apply judged.imp
    intro request outcome fine call asked
    rw [fine call asked, admits_iff_of_plain readyPlain (paired.transforms _), readyMode,
      holds.shape.width]
    exact and_iff_right keyed
  refine ⟨.live last, answers ++ outcomes, sending sends _ _ yielded, ?_, ?_, ?_⟩
  · apply forall₂_append_silent _ silent goes
    intro request outcome quiet call asked
    rw [quiet] at asked
    cases asked
  · rw [exchanges_append_silent silent]
    intro receives feeds
    obtain ⟨received, finished, passed, returned⟩ := delivered receives feeds
    refine ⟨.live lastReceiver, otherAnswers ++ received, receiving receives _ _ finished,
      passes passed, ?_⟩
    rw [exchanges_append_silent otherSilent]
    exact returned
  · rw [exchanges_append_silent silent]
    intro feeds receives decrypts joined
    obtain ⟨feedback, carries⟩ : ∃ feedback, ready.mode.feedback? .encrypt = some feedback := by
      rw [readyMode]
      rcases feeds with rfl | rfl <;> exact ⟨_, rfl⟩
    obtain ⟨lastReceiver, received, finished, passed, returned⟩ :=
      inStep.streamed streams carries keyed decrypts joined
    refine ⟨.live lastReceiver, otherAnswers ++ received, receiving receives _ _ finished,
      passes passed, ?_⟩
    rw [exchanges_append_silent otherSilent]
    exact returned

/-- Two specimens in cipher feedback, of which only one may be realigned, with the settings
in different orders. -/
theorem session_returns_specimen :
    ∃ last outcomes,
      Yields ((Handle.live (Specimen.opened .cfb {})).respondAll
        ([.setKey [], .setIv [1, 2, 3]] ++ Specimen.sends)) (last, outcomes) ∧
      List.Forall₂ (Request.Goes .cfb 16)
        ([.setKey [], .setIv [1, 2, 3]] ++ Specimen.sends) outcomes ∧
      ∀ receives : List Request, (∀ request ∈ receives, request.Decrypts) →
        inputs receives = Exchange.ciphertexts
          (exchanges ([.setKey [], .setIv [1, 2, 3]] ++ Specimen.sends) outcomes) →
        ∃ lastReceiver received,
          Yields ((Handle.live (Specimen.opened .cfb { syncEnabled := true })).respondAll
            ([.setIv [1, 2, 3], .setKey []] ++ receives)) (lastReceiver, received) ∧
          List.Forall₂ Request.Passed ([.setIv [1, 2, 3], .setKey []] ++ receives) received ∧
          Exchange.plaintexts
              (exchanges ([.setIv [1, 2, 3], .setKey []] ++ receives) received) =
            Exchange.plaintexts
              (exchanges ([.setKey [], .setIv [1, 2, 3]] ++ Specimen.sends) outcomes) := by
  have sets : ∀ request ∈ [Request.setKey [], .setIv [1, 2, 3]], request.Sets := by
    simp [Request.Sets.key, Request.Sets.iv]
  have otherSets : ∀ request ∈ [Request.setIv [1, 2, 3], .setKey []], request.Sets := by
    simp [Request.Sets.key, Request.Sets.iv]
  have opened : (Specimen.opened .cfb {}).Opened .cfb false :=
    ⟨_, _, {}, _, Specimen.openOn_gives rfl rfl, rfl, rfl⟩
  have otherOpened : (Specimen.opened .cfb { syncEnabled := true }).Opened .cfb false :=
    ⟨_, _, { syncEnabled := true }, _, Specimen.openOn_gives rfl rfl, rfl, rfl⟩
  have encrypts : ∀ request ∈ Specimen.sends, request.Encrypts := by
    simp [Specimen.sends, Request.Encrypts, Request.call?]
  obtain ⟨last, outcomes, yielded, judged, _, streamed⟩ :=
    session_returns opened otherOpened (by decide) rfl Specimen.computes Specimen.keys
      ⟨sets, otherSets, rfl, rfl, rfl⟩ rfl (Specimen.invertible _ _) encrypts
  exact ⟨last, outcomes, yielded, judged, streamed (Or.inl rfl)⟩

end CipherEngine.LiveHandle
