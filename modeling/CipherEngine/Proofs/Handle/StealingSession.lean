import CipherEngine.Proofs.Chaining.Drift
import CipherEngine.Proofs.Handle.Paired
import CipherEngine.Proofs.Specimen

/-!
# Sessions with ciphertext stealing

Two handles that chain blocks with stealing, under one key and from one chaining
value, need not stay together: the chaining values that they hold after a session
are those of the drift. Every ciphertext is decrypted without an error, to what the
drift lets through.
-/
namespace CipherEngine.LiveHandle

open BlockChaining Standin

variable {m : Type → Type}

/-- The handles chain blocks with stealing, on one algorithm, under one key and from one
chaining value. -/
structure StealingAlike (sender receiver : LiveHandle m) : Prop where
  mode : sender.mode = .cbc
  otherMode : receiver.mode = .cbc
  stealing : sender.flags.stealing = true
  otherStealing : receiver.flags.stealing = true
  algorithm : receiver.pin.algorithm = sender.pin.algorithm
  keyed : receiver.keyed = sender.keyed
  live : receiver.arena.read .live = sender.arena.read .live
  iv : receiver.arena.read .iv = sender.arena.read .iv

variable [Monad m] {functions : BlockFunctions}

/-- Where two handles are that chain with stealing, after passages from one chaining value:
their chaining values have drifted, and the receiver has opened what the drift lets through. -/
structure Drifted (functions : BlockFunctions) (context : Bytes) (size : Nat) (iv : Bytes)
    (sender receiver : LiveHandle m) (finished : List Passage) : Prop extends
    Paired functions sender receiver where
  chains : sender.mode = .cbc
  steals : sender.stealing = true
  held : sender.arena.read .live = context
  blocks : sender.blockLength = size
  boundary : sender.carry = 0
  otherBoundary : receiver.carry = 0
  aligned : ∀ passage ∈ finished,
    passage.message.length ≤ size → size ∣ passage.message.length
  ivs : (sender.arena.read .iv, receiver.arena.read .iv) =
    (finished.map Passage.message).foldl (drift functions context size) (iv, iv)
  opened : finished.map Passage.opened =
    openings functions context size (iv, iv) (finished.map Passage.message)

/-- Handles that are alike have not drifted. -/
theorem StealingAlike.drifted [LawfulMonad m] {sender receiver : LiveHandle m}
    (alike : sender.StealingAlike receiver) (reachable : sender.Reachable)
    (otherReachable : receiver.Reachable) (computes : sender.pin.algorithm.Computes functions)
    (invertible : functions.InvertibleUnder (sender.arena.read .live) sender.blockLength) :
    Drifted functions (sender.arena.read .live) sender.blockLength (sender.arena.read .iv)
      sender receiver [] := by
  have rests : sender.mode.Rests := by
    rw [alike.mode]
    decide
  have otherRests : receiver.mode.Rests := by
    rw [alike.otherMode]
    decide
  have steals : sender.stealing = true := by
    simp [LiveHandle.stealing, alike.mode, alike.stealing]
  have otherSteals : receiver.stealing = true := by
    simp [LiveHandle.stealing, alike.otherMode, alike.otherStealing]
  have plain : sender.mac = false := by
    have consistent := reachable.sound.consistent
    simpa [LiveHandle.mac, Flags.consistent, alike.stealing, alike.mode] using consistent
  constructor
  · exact ⟨reachable.fitted, otherReachable.fitted, computes, invertible, alike.algorithm,
      alike.otherMode.trans alike.mode.symm, otherSteals.trans steals.symm, plain, alike.keyed,
      alike.live⟩
  · exact alike.mode
  · exact steals
  · rfl
  · rfl
  · exact reachable.sound.boundary rests
  · exact otherReachable.sound.boundary otherRests
  · intro _ member
    cases member
  · exact congrArg _ alike.iv
  · rfl

namespace Drifted

variable {context : Bytes} {size : Nat} {iv : Bytes} {sender receiver : LiveHandle m}
  {finished : List Passage}

/-- The mode chains blocks. -/
theorem chainsBlocks (drifted : Drifted functions context size iv sender receiver finished) :
    sender.mode.chainsBlocks = true := by
  rw [drifted.chains]
  rfl

/-- Both states of the mode fit. -/
theorem fits (drifted : Drifted functions context size iv sender receiver finished) :
    sender.chain.Fits size ∧ receiver.chain.Fits size := by
  have positive := drifted.fitted.positive drifted.chainsBlocks
  have width := drifted.width
  have first := drifted.fitted.chain_fits (drifted.boundary.symm ▸ positive)
  have second := drifted.otherFitted.chain_fits (drifted.otherBoundary.symm ▸ width.symm ▸ positive)
  rw [drifted.blocks] at first width
  rw [width] at second
  exact ⟨first, second⟩

/-- A message that is judged as it should be may be chained. -/
theorem dvd_of_judged (drifted : Drifted functions context size iv sender receiver finished)
    {message : Bytes} (judged : sender.mustAlign message.length = true →
      message.length % sender.blockLength = 0) (short : message.length ≤ size) :
    size ∣ message.length := by
  rw [mustAlign, drifted.chains, drifted.steals, drifted.blocks] at judged
  exact Nat.dvd_of_mod_eq_zero (judged (by simpa using short))

variable [LawfulMonad m]

/-- A message goes over, to what the drift lets through, and both chaining values drift on. -/
theorem transforms_give (drifted : Drifted functions context size iv sender receiver finished)
    {message : Bytes} (aligned : message.length ≤ size → size ∣ message.length) :
    let ivs := drift functions context size (sender.chain.iv, receiver.chain.iv) message
    ∃ previous ciphertext, ciphertext.length = message.length ∧
      Chain.Fits sender.blockLength { sender.chain with iv := ivs.1 } ∧
      Chain.Fits receiver.blockLength { receiver.chain with iv := ivs.2, previous } ∧
      Gives (sender.transform .encrypt message)
        (sender.withChain { sender.chain with iv := ivs.1 }, ciphertext) ∧
      Gives (receiver.transform .decrypt ciphertext)
        (receiver.withChain { receiver.chain with iv := ivs.2, previous },
          Bytes.mask message (Bytes.mask sender.chain.iv receiver.chain.iv)) := by
  intro ivs
  obtain ⟨fits, otherFits⟩ := drifted.fits
  obtain ⟨cipher, available, held, computes⟩ :=
    drifted.fitted.cipher_eq drifted.chainsBlocks drifted.computes
  have invertible := drifted.invertible
  rw [drifted.blocks] at computes
  rw [drifted.blocks, ← held] at invertible
  have goes := message_drifts computes invertible fits otherFits aligned
  rw [held, drifted.held] at goes
  obtain ⟨previous, ciphertext, ivWidth, otherWidth, previousWidth, width, encrypted, decrypted⟩ :=
    goes
  refine ⟨previous, ciphertext, width, ?_, ?_, ?_, ?_⟩
  · rw [drifted.blocks]
    exact ⟨ivWidth, fits.previous, fits.counter, fits.scratch, fits.carry⟩
  · rw [drifted.width, drifted.blocks]
    exact ⟨otherWidth, previousWidth, otherFits.counter, otherFits.scratch, otherFits.carry⟩
  · rw [transform, drifted.chains, drifted.steals]
    exact chained_gives available encrypted
  · rw [transform, drifted.mode, drifted.chains, drifted.stealing, drifted.steals]
    exact chained_gives ((drifted.cipher_eq drifted.chainsBlocks).trans available) decrypted

/-- A message that is judged as it should be goes over, and the handles have drifted on. -/
theorem step (drifted : Drifted functions context size iv sender receiver finished)
    {message : Bytes} (judged : sender.mustAlign message.length = true →
      message.length % sender.blockLength = 0) :
    ∃ next nextReceiver passage, passage.message = message ∧
      sender.Carries receiver next nextReceiver passage ∧
      Drifted functions context size iv next nextReceiver (finished ++ [passage]) := by
  have aligned := drifted.dvd_of_judged judged
  obtain ⟨previous, ciphertext, width, fits, otherFits, sends, opens⟩ :=
    drifted.transforms_give aligned
  have put := drifted.fitted.chain_withChain fits
  have otherPut := drifted.otherFitted.chain_withChain otherFits
  have now : (sender.chain.iv, receiver.chain.iv) =
      (finished.map Passage.message).foldl (drift functions context size) (iv, iv) := drifted.ivs
  have carries : sender.Carries receiver _ _ ⟨message, ciphertext, _⟩ :=
    ⟨width, Bytes.length_mask _ _, sends, opens, withChain_continues sender _,
      withChain_continues receiver _⟩
  refine ⟨_, _, _, rfl, carries,
    drifted.toPaired.continues carries.continues carries.otherContinues, drifted.chains,
    drifted.steals, carries.continues.live.trans drifted.held, drifted.blocks, drifted.boundary,
    drifted.otherBoundary, ?_, ?_, ?_⟩
  · intro passage member
    rcases List.mem_append.mp member with earlier | last
    · exact drifted.aligned passage earlier
    · rw [List.mem_singleton.mp last]
      exact aligned
  · rw [List.map_append, List.foldl_append, ← now]
    exact congrArg₂ Prod.mk (congrArg Chain.iv put) (congrArg Chain.iv otherPut)
  · rw [List.map_append, List.map_append, List.map_singleton, List.map_singleton,
      openings_append, drifted.opened, ← now]
    rfl

end Drifted

/-- Two handles chain blocks with stealing, under one key and from one chaining value, and
decryption undoes encryption. Then whatever calls to encrypt the one goes through,
decrypting the ciphertexts in their order with the other succeeds, and gives what the drift
lets through. The messages come back exactly if the textbook ciphertext of every message of
more than one block that bytes come after ends in one block twice; and the handles end with
one chaining value exactly if that is so of the last message with bytes. -/
theorem stealing_session_returns_iff [LawfulMonad m] {sender receiver : LiveHandle m}
    (reachable : sender.Reachable) (otherReachable : receiver.Reachable)
    (alike : sender.StealingAlike receiver) (computes : sender.pin.algorithm.Computes functions)
    (invertible : functions.InvertibleUnder (sender.arena.read .live) sender.blockLength)
    {sends : List Request} (encrypts : ∀ request ∈ sends, request.Encrypts) :
    ∃ last outcomes,
      Yields ((Handle.live sender).respondAll sends) (.live last, outcomes) ∧
      List.Forall₂ (Request.Judged sender) sends outcomes ∧
      ∀ receives, List.Forall₂ Exchange.Feeds (exchanges sends outcomes) receives →
        ∃ lastReceiver received,
          Yields ((Handle.live receiver).respondAll receives) (.live lastReceiver, received) ∧
          List.Forall₂ Request.Passed receives received ∧
          let context := sender.arena.read .live
          let size := sender.blockLength
          let iv := sender.arena.read .iv
          let messages := (exchanges sends outcomes).map Exchange.input
          (exchanges receives received).map Exchange.output =
            openings functions context size (iv, iv) messages ∧
          (last.arena.read .iv, lastReceiver.arena.read .iv) =
            messages.foldl (drift functions context size) (iv, iv) ∧
          (exchanges receives received = (exchanges sends outcomes).map Exchange.returned ↔
            Repeating functions context size (fun rest => ∃ later ∈ rest, later ≠ []) iv
              messages) ∧
          (lastReceiver.arena.read .iv = last.arena.read .iv ↔
            Repeating functions context size (fun rest => ∀ later ∈ rest, later = []) iv
              messages) := by
  have begins := alike.drifted reachable otherReachable computes invertible
  have width : (sender.arena.read .iv).length = sender.blockLength := begins.fits.1.iv
  have positive := begins.fitted.positive begins.chainsBlocks
  obtain ⟨cipher, _, held, keyed⟩ := begins.fitted.cipher_eq begins.chainsBlocks computes
  have sized := encryptStep_sized keyed
  rw [held] at sized
  obtain ⟨last, lastReceiver, passages, outcomes, yielded, judged, sent, drifted, delivered⟩ :=
    run_passages (Drifted functions (sender.arena.read .live) sender.blockLength
        (sender.arena.read .iv))
      (fun _ _ _ related => related.toPaired) (fun _ _ _ _ related => related.step) encrypts begins
  rw [List.nil_append] at drifted
  refine ⟨last, outcomes, yielded, judged, ?_⟩
  rw [sent]
  intro receives feeds
  obtain ⟨received, finished, passed, opened⟩ := delivered receives feeds
  have messages : (passages.map Passage.sent).map Exchange.input =
      passages.map Passage.message := by
    rw [List.map_map]
    rfl
  have outputs : (passages.map Passage.received).map Exchange.output =
      passages.map Passage.opened := by
    rw [List.map_map]
    rfl
  have aligned : ∀ message ∈ passages.map Passage.message,
      message.length ≤ sender.blockLength → sender.blockLength ∣ message.length := by
    intro message member
    obtain ⟨passage, among, rfl⟩ := List.mem_map.mp member
    exact drifted.aligned passage among
  have together := drifts_together_iff functions (sender.arena.read .live) positive aligned
    (sender.arena.read .iv) (sender.arena.read .iv)
  rw [← drifted.ivs] at together
  refine ⟨lastReceiver, received, finished, passed, ?_⟩
  rw [opened, messages, outputs]
  refine ⟨drifted.opened, drifted.ivs, ?_, ?_⟩
  · rw [received_eq_returned_iff, drifted.opened,
      openings_eq_self_iff positive sized aligned width width]
    exact and_iff_right fun _ => rfl
  · exact (eq_comm.trans together).trans (and_iff_right fun _ => rfl)

/-- Two keyed specimens with stealing, and a message of two blocks before one of a block. -/
theorem stealing_session_returns_iff_specimen :
    ∃ last outcomes,
      Yields ((Handle.live (Specimen.keyed .cbc { stealing := true })).respondAll Specimen.stolen)
        (.live last, outcomes) ∧
      ∀ receives, List.Forall₂ Exchange.Feeds (exchanges Specimen.stolen outcomes) receives →
        ∃ lastReceiver received,
          Yields ((Handle.live (Specimen.keyed .cbc { stealing := true })).respondAll receives)
            (.live lastReceiver, received) ∧
          (exchanges receives received =
              (exchanges Specimen.stolen outcomes).map Exchange.returned ↔
            Repeating Flip.blockFunctions (Bytes.zeros 16) 16
              (fun rest => ∃ later ∈ rest, later ≠ []) (Bytes.zeros 16)
              ((exchanges Specimen.stolen outcomes).map Exchange.input)) := by
  have reachable := Specimen.reachable_keyed .cbc { stealing := true } rfl rfl
  have alike : (Specimen.keyed .cbc { stealing := true }).StealingAlike
      (Specimen.keyed .cbc { stealing := true }) := ⟨rfl, rfl, rfl, rfl, rfl, rfl, rfl, rfl⟩
  have encrypts : ∀ request ∈ Specimen.stolen, request.Encrypts := by
    simp [Specimen.stolen, Request.Encrypts, Request.call?]
  obtain ⟨last, outcomes, yielded, _, delivered⟩ := stealing_session_returns_iff reachable reachable
    alike Specimen.computes (Specimen.invertible _ _) encrypts
  refine ⟨last, outcomes, yielded, ?_⟩
  intro receives feeds
  obtain ⟨lastReceiver, received, finished, _, _, _, returned, _⟩ := delivered receives feeds
  exact ⟨lastReceiver, received, finished, returned⟩

/-- After a message of two blocks that does not end in one block twice, a message of one
block is opened as other bytes. -/
theorem stealing_session_comes_apart :
    let handle := Specimen.keyed .cbc { stealing := true }
    let sent := exchanges Specimen.stolen
      (Id.run ((Handle.live handle).respondAll Specimen.stolen)).2
    let receives := sent.map fun exchange => Request.decryptInPlace exchange.output
    let received := exchanges receives (Id.run ((Handle.live handle).respondAll receives)).2
    Flip.blockFunctions.InvertibleUnder (handle.arena.read .live) handle.blockLength ∧
      sent.map Exchange.input = [Bytes.zeros 32, Bytes.zeros 16] ∧
      received.map Exchange.output = [Bytes.zeros 32, List.replicate 16 0xFF] ∧
      received ≠ sent.map Exchange.returned := by
  intro handle sent receives received
  exact ⟨Specimen.invertible _ _, by decide +kernel, by decide +kernel, by decide +kernel⟩

end CipherEngine.LiveHandle
