import CipherEngine.Proofs.Handle.InStep

/-!
# Messages that are delivered

Every message that a handle takes, a receiver in step with it gives back. In the
feedback modes the ciphertext may also be cut into other calls, since it is one
stream.
-/
namespace CipherEngine

open Keystream

/-- The call fits a handle that chains plainly: the buffer has room for the result, and
in a mode of whole blocks the input is aligned. -/
structure MessageCall.Fits (mode : Mode) (size : Nat) (call : MessageCall) : Prop where
  room : call.input.length ≤ call.buffer.length
  aligned : mode = .ecb ∨ mode = .cbc → call.input.length % size = 0

/-- A call to a keyed handle that chains plainly goes through exactly if it fits. -/
def Request.Goes {m : Type → Type} (mode : Mode) (size : Nat) (request : Request)
    (outcome : Outcome m) : Prop :=
  ∀ call, request.call? = some call →
    ((request.exchange? outcome).isSome = true ↔ call.Fits mode size)

/-- The request asks to decrypt, with room for the result. -/
def Request.Decrypts (request : Request) : Prop :=
  ∃ call, request.call? = some call ∧ call.direction = .decrypt ∧
    call.input.length ≤ call.buffer.length

/-- All that goes into the calls among the requests, in order. -/
def inputs (requests : List Request) : Bytes :=
  (requests.filterMap Request.call?).flatMap MessageCall.input

/-- An exchange has the direction and the input of its call. -/
theorem Request.eq_of_exchange? {m : Type → Type} {request : Request} {call : MessageCall}
    {outcome : Outcome m} {exchange : Exchange} (asked : request.call? = some call)
    (passed : request.exchange? outcome = some exchange) :
    exchange.direction = call.direction ∧ exchange.input = call.input := by
  rw [Request.exchange?, asked] at passed
  split at passed
  · next other written same _ =>
    cases passed
    cases same
    exact ⟨rfl, rfl⟩
  · cases passed

/-- Where every request decrypts and went through, the ciphertext is what went in. -/
theorem ciphertexts_of_decrypts {m : Type → Type} {requests : List Request}
    {outcomes : List (Outcome m)} (decrypts : ∀ request ∈ requests, request.Decrypts)
    (passed : List.Forall₂ Request.Passed requests outcomes) :
    Exchange.ciphertexts (exchanges requests outcomes) = inputs requests := by
  induction passed with
  | nil => rfl
  | @cons request outcome rest others first _ inductionHypothesis =>
    obtain ⟨call, asked, direction, _⟩ := decrypts request List.mem_cons_self
    obtain ⟨exchange, exchanged⟩ := Option.isSome_iff_exists.mp (first (by rw [asked]; rfl))
    obtain ⟨sameDirection, sameInput⟩ := Request.eq_of_exchange? asked exchanged
    have later := inductionHypothesis fun other member =>
      decrypts other (List.mem_cons_of_mem request member)
    have ciphertext : exchange.ciphertext = call.input := by
      rw [Exchange.ciphertext, sameDirection, direction]
      exact sameInput
    rw [exchanges_cons, exchanged, Option.toList_some, Exchange.ciphertexts_append,
      Exchange.ciphertexts_singleton, ciphertext, later, inputs, inputs,
      List.filterMap_cons_some asked, List.flatMap_cons]

/-- With a key, every request to decrypt with room goes through in a feedback mode. -/
theorem passed_of_served {m : Type → Type} {requests : List Request} {outcomes : List (Outcome m)}
    (decrypts : ∀ request ∈ requests, request.Decrypts)
    (served : List.Forall₂ (Request.Served true) requests outcomes) :
    List.Forall₂ Request.Passed requests outcomes := by
  induction served with
  | nil => exact .nil
  | @cons request outcome rest others first _ inductionHypothesis =>
    obtain ⟨call, asked, _, room⟩ := decrypts request List.mem_cons_self
    have later := inductionHypothesis fun other member =>
      decrypts other (List.mem_cons_of_mem request member)
    exact .cons (fun _ => (first.call call asked).mpr ⟨rfl, room⟩) later

namespace LiveHandle

variable {m : Type → Type}

/-- Without stealing, a call whose result is not a MAC is admitted if it fits. -/
theorem admits_iff_of_plain {handle : LiveHandle m} {call : MessageCall}
    (plain : handle.stealing = false)
    (transforms : (call.direction = .encrypt && handle.mac) = false) :
    handle.Admits call ↔ handle.keyed = true ∧ call.Fits handle.mode handle.blockLength := by
  have required : handle.requiredOutput call.direction call.input.length = call.input.length := by
    simp [requiredOutput, transforms]
  have judged : handle.mustAlign call.input.length = true ↔
      handle.mode = .ecb ∨ handle.mode = .cbc := by
    unfold mustAlign
    cases handle.mode <;> simp [plain]
  constructor
  · rintro ⟨keyed, room, aligned⟩
    exact ⟨keyed, required ▸ room, fun chosen => aligned (judged.mpr chosen)⟩
  · rintro ⟨keyed, room, aligned⟩
    exact ⟨keyed, required.symm ▸ room, fun chosen => aligned (judged.mp chosen)⟩

variable [Monad m] [LawfulMonad m] {functions : BlockFunctions} {sender receiver : LiveHandle m}

/-- A run of encryptions goes through as far as the calls are admitted, and decrypting its
ciphertexts in their order gives the messages back. -/
theorem InStep.run (inStep : sender.InStep functions receiver) {sends : List Request}
    (encrypts : ∀ request ∈ sends, request.Encrypts) :
    ∃ last lastReceiver outcomes,
      Yields ((Handle.live sender).respondAll sends) (.live last, outcomes) ∧
      List.Forall₂ (Request.Judged sender) sends outcomes ∧
      sender.Streams functions last (Exchange.plaintexts (exchanges sends outcomes))
        (Exchange.ciphertexts (exchanges sends outcomes)) ∧
      ∀ receives, List.Forall₂ Exchange.Feeds (exchanges sends outcomes) receives →
        ∃ received,
          Yields ((Handle.live receiver).respondAll receives) (.live lastReceiver, received) ∧
          List.Forall₂ Request.Passed receives received ∧
          exchanges receives received = (exchanges sends outcomes).map Exchange.returned := by
  let Related (current follower : LiveHandle m) (finished : List Passage) : Prop :=
    current.InStep functions follower ∧ sender.Continues current ∧
      sender.Streams functions current (Exchange.plaintexts (finished.map Passage.sent))
        (Exchange.ciphertexts (finished.map Passage.sent)) ∧
      ∀ passage ∈ finished, passage.opened = passage.message
  have begins : Related sender receiver [] :=
    ⟨inStep, Continues.refl sender, Streams.refl functions sender, by simp⟩
  obtain ⟨last, lastReceiver, passages, outcomes, yielded, judged, sent, ⟨_, _, streams, whole⟩,
    delivered⟩ := run_passages Related (fun _ _ _ related => related.1.toPaired)
    (by
      rintro current follower finished message ⟨together, continues, streams, whole⟩ aligned
      obtain ⟨next, nextFollower, ciphertext, carries, again, more⟩ := together.delivers aligned
      refine ⟨next, nextFollower, _, rfl, carries, again, continues.trans carries.continues, ?_, ?_⟩
      · rw [List.map_append, Exchange.plaintexts_append, Exchange.ciphertexts_append]
        apply streams.trans continues
        rw [List.map_singleton, Exchange.plaintexts_singleton, Exchange.ciphertexts_singleton]
        exact more
      · intro passage member
        rcases List.mem_append.mp member with earlier | now
        · exact whole passage earlier
        · rw [List.mem_singleton.mp now])
    encrypts begins
  have returned := (received_eq_returned_iff passages).mpr (List.map_congr_left whole)
  rw [List.nil_append] at streams
  rw [← sent] at streams delivered returned
  rw [returned] at delivered
  exact ⟨last, lastReceiver, outcomes, yielded, judged, streams, delivered⟩

/-- The machine keeps what it has made of the ciphertext up to now. -/
theorem keeps_passed (encipher : Bytes → Bytes) (size : Nat) (feedback : Feedback)
    (origin : Chain) :
    Keeps encipher size .decrypt feedback fun chain plaintext ciphertext =>
      settle chain = settle (passBytes encipher feedback origin ciphertext).1 ∧
        plaintext = (passBytes encipher feedback origin ciphertext).2 := by
  rintro chain after plaintext ciphertext buffer _ ⟨settled, bytes⟩ passed same
  obtain ⟨sameChain, sameBytes⟩ := pass_congr encipher feedback buffer settled
  change settle after = settle (passBytes encipher feedback origin (ciphertext ++ buffer)).1 ∧
    plaintext ++ passed.2 = (passBytes encipher feedback origin (ciphertext ++ buffer)).2
  rw [pass_append, ← bytes, ← sameBytes]
  exact ⟨same.trans sameChain, rfl⟩

/-- In a feedback mode, a ciphertext that went out may come in cut into any calls. -/
theorem InStep.streamed (inStep : sender.InStep functions receiver) {last : LiveHandle m}
    {message ciphertext : Bytes} (streams : sender.Streams functions last message ciphertext)
    {feedback : Feedback} (carries : sender.mode.feedback? .encrypt = some feedback)
    (keyed : sender.keyed = true) {receives : List Request}
    (decrypts : ∀ request ∈ receives, request.Decrypts) (joined : inputs receives = ciphertext) :
    ∃ lastReceiver received,
      Yields ((Handle.live receiver).respondAll receives) (.live lastReceiver, received) ∧
      List.Forall₂ Request.Passed receives received ∧
      Exchange.plaintexts (exchanges receives received) = message := by
  obtain ⟨back, backCarries, returns⟩ := Mode.feedback?_returns carries
  have chains := Mode.chainsBlocks_of_feedback? carries
  let encipher := functions.encrypt (receiver.arena.read .live)
  have computes : receiver.pin.algorithm.Computes functions := by
    rw [inStep.algorithm]
    exact inStep.computes
  have small : receiver.chain.carry < receiver.blockLength := by
    rw [inStep.width]
    exact (inStep.fits chains).2.carry
  have begins : receiver.Stands (fun chain plaintext ciphertext =>
      settle chain = settle (passBytes encipher back receiver.chain ciphertext).1 ∧
        plaintext = (passBytes encipher back receiver.chain ciphertext).2) receiver [] :=
    ⟨SameShape.refl receiver, rfl, rfl, rfl, rfl, small, rfl, rfl⟩
  obtain ⟨lastReceiver, received, yielded, served, stands⟩ :=
    Stands.run inStep.otherFitted computes (fun request member => by
      obtain ⟨call, asked, direction, _⟩ := decrypts request member
      refine Or.inl ⟨call, back, asked, ?_, ?_⟩
      · rw [direction, inStep.mode]
        exact backCarries
      · rw [direction]
        exact keeps_passed encipher receiver.blockLength back receiver.chain) begins
  rw [inStep.keyed, keyed] at served
  have passed := passed_of_served decrypts served
  obtain ⟨_, plaintexts⟩ := stands.holds
  obtain ⟨_, sent⟩ := streams feedback carries
  obtain ⟨_, sameBytes⟩ := pass_congr encipher back ciphertext inStep.chain
  refine ⟨lastReceiver, received, yielded, passed, ?_⟩
  rw [plaintexts, ciphertexts_of_decrypts decrypts passed, joined, sameBytes, sent]
  simp only [encipher, inStep.live, pass_returns _ returns]

end LiveHandle

end CipherEngine
