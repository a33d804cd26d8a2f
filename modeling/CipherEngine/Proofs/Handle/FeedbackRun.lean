import CipherEngine.Proofs.Chaining.CiphertextStream
import CipherEngine.Proofs.Chaining.OutputFeedback
import CipherEngine.Proofs.Handle.Reach

/-!
# Runs in the feedback modes

A handle in cipher feedback or output feedback goes through calls of any lengths.
Each admitted call is the byte-by-byte machine on the state of the mode, so what
that machine keeps of a message, the handle keeps over a run of calls; calls that
are refused change nothing.

`Stands` says what a run keeps, for any property of the state and of the bytes
exchanged up to now that the machine keeps.
-/
namespace CipherEngine

open Keystream

/-- What a feedback mode leaves in the place of a keystream byte. -/
def Mode.feedback? (mode : Mode) (direction : Direction) : Option Feedback :=
  match mode with
  | .cfb => some (.ciphertext direction)
  | .ofb => some .keystream
  | _ => Option.none

/-- In the feedback modes it is something, in both directions. -/
theorem Mode.exists_feedback {mode : Mode} (feeds : mode = .cfb ∨ mode = .ofb)
    (direction : Direction) : ∃ feedback, mode.feedback? direction = some feedback := by
  obtain rfl | rfl := feeds <;> exact ⟨_, rfl⟩

/-- And they chain single blocks. -/
theorem Mode.chainsBlocks_of_feeds {mode : Mode} (feeds : mode = .cfb ∨ mode = .ofb) :
    mode.chainsBlocks = true := by
  obtain rfl | rfl := feeds <;> rfl

/-- A feedback mode chains single blocks. -/
theorem Mode.chainsBlocks_of_feedback? {mode : Mode} {direction : Direction} {feedback : Feedback}
    (carries : mode.feedback? direction = some feedback) : mode.chainsBlocks = true := by
  cases mode with
  | cfb | ofb => rfl
  | none | ecb | cbc | ctr | stream => cases carries

/-- A feedback mode takes messages of any length. -/
theorem Mode.free_of_feedback? {mode : Mode} {direction : Direction} {feedback : Feedback}
    (carries : mode.feedback? direction = some feedback) : mode ≠ .cbc ∧ mode ≠ .ecb := by
  constructor <;> rintro rfl <;> cases carries

/-- What a feedback mode masks in encryption, it returns in decryption. -/
theorem Mode.feedback?_returns {mode : Mode} {feedback : Feedback}
    (carries : mode.feedback? .encrypt = some feedback) :
    ∃ back, mode.feedback? .decrypt = some back ∧ feedback.Returns back := by
  cases mode with
  | cfb =>
    cases carries
    exact ⟨_, rfl, fun _ _ => rfl⟩
  | ofb =>
    cases carries
    exact ⟨_, rfl, fun _ _ => rfl⟩
  | none | ecb | cbc | ctr | stream => cases carries

/-- What a handle in a feedback mode, with or without a key, owes to a request: a call
goes through exactly if there is a key and room, and a realignment always. -/
structure Request.Served {m : Type → Type} (keyed : Bool) (request : Request)
    (outcome : Outcome m) : Prop where
  call : ∀ call, request.call? = some call →
    ((request.exchange? outcome).isSome = true ↔
      keyed = true ∧ call.input.length ≤ call.buffer.length)
  sync : request = .syncFeedback → outcome.reply = .ok (.done (.ok ()))

namespace LiveHandle

variable {m : Type → Type}

/-- Only in the modes of whole blocks is an input aligned. -/
theorem mustAlign_of_free {handle : LiveHandle m} (free : handle.mode ≠ .cbc ∧ handle.mode ≠ .ecb)
    (inputLength : Nat) : handle.mustAlign inputLength = false := by
  unfold mustAlign
  split
  · next chosen => exact absurd chosen free.2
  · next chosen => exact absurd chosen free.1
  · rfl

/-- In the other modes a call is admitted if there is a key and room. -/
theorem admits_iff_of_free {handle : LiveHandle m} (free : handle.mode ≠ .cbc ∧ handle.mode ≠ .ecb)
    (call : MessageCall) :
    handle.Admits call ↔ handle.keyed = true ∧ call.input.length ≤ call.buffer.length := by
  have required : handle.requiredOutput call.direction call.input.length = call.input.length := by
    simp [requiredOutput, mac, free.1]
  have judged := mustAlign_of_free free call.input.length
  constructor
  · rintro ⟨keyed, room, _⟩
    exact ⟨keyed, required ▸ room⟩
  · rintro ⟨keyed, room⟩
    exact ⟨keyed, required.symm ▸ room, fun must => absurd (judged.symm.trans must) (by decide)⟩

variable [Monad m] [LawfulMonad m] {functions : BlockFunctions}

/-- In a mode that takes messages of any length and whose transform goes through, a call
ends with the output or is refused. -/
theorem respond_transforms {handle next : LiveHandle m}
    (free : handle.mode ≠ .cbc ∧ handle.mode ≠ .ecb) {request : Request} {call : MessageCall}
    (asked : request.call? = some call) {output : Bytes}
    (width : output.length = call.input.length)
    (given : Gives (handle.transform call.direction call.input) (next, output)) :
    ∃ after reply events,
      let outcome := answered after reply events
      Yields (handle.respond request) outcome ∧ request.Served handle.keyed outcome ∧
        (after = next ∧ request.exchange? outcome = some ⟨call.direction, call.input, output⟩ ∨
          after = handle ∧ request.exchange? outcome = none) := by
  have noSync : request ≠ .syncFeedback := by
    rintro rfl
    cases asked
  have served {outcome : Outcome m}
      (decided : (request.exchange? outcome).isSome = true ↔ handle.Admits call) :
      request.Served handle.keyed outcome := by
    refine ⟨fun other again => ?_, fun same => absurd same noSync⟩
    obtain rfl := Option.some.inj (asked.symm.trans again)
    exact decided.trans (admits_iff_of_free free call)
  have positive : handle.mustAlign call.input.length = true → 0 < handle.blockLength :=
    fun judged => absurd ((mustAlign_of_free free _).symm.trans judged) (by decide)
  have transforms : (call.direction = .encrypt && handle.mac) = false := by simp [mac, free.1]
  obtain ⟨after, reply, events, answer, decided, left⟩ :=
    respond_decided asked positive transforms (fun left put => left = next ∧ put = output)
      fun _ => ⟨next, output, given, width, rfl, rfl⟩
  refine ⟨after, reply, events, answer, served decided, ?_⟩
  obtain ⟨_, ⟨rfl, rfl⟩, exchanged⟩ | unchanged := left
  · exact .inl ⟨rfl, exchanged⟩
  · exact .inr unchanged

/-- A transform in a feedback mode is the byte-by-byte machine on the state of the mode. -/
theorem transform_feedback {handle : LiveHandle m} (fitted : handle.Fitted)
    (computes : handle.pin.algorithm.Computes functions)
    (small : handle.carry < handle.blockLength) {direction : Direction} {feedback : Feedback}
    (carries : handle.mode.feedback? direction = some feedback) (buffer : Bytes) :
    let passed :=
      passBytes (functions.encrypt (handle.arena.read .live)) feedback handle.chain buffer
    ∃ after, Gives (handle.transform direction buffer) (handle.withChain after, passed.2) ∧
      after.Fits handle.blockLength ∧ settle after = settle passed.1 := by
  obtain ⟨cipher, available, context, keyed⟩ :=
    fitted.cipher_eq (Mode.chainsBlocks_of_feedback? carries) computes
  have fits := fitted.chain_fits small
  rw [← context]
  cases mode : handle.mode with
  | cfb =>
    rw [mode] at carries
    cases carries
    obtain ⟨after, given, afterFits, same⟩ :=
      CipherFeedback.transform_gives keyed direction fits buffer
    refine ⟨after, ?_, afterFits, same⟩
    rw [transform, mode]
    simp only [available]
    apply Gives.bind (Gives.pure cipher)
    exact Gives.bind (given.adapt Stop.fault) (Gives.pure _)
  | ofb =>
    rw [mode] at carries
    cases carries
    refine ⟨_, ?_, pass_fits _ _ buffer keyed.lengthEncrypt fits, rfl⟩
    rw [transform, mode]
    simp only [available]
    apply Gives.bind (Gives.pure cipher)
    exact Gives.bind ((OutputFeedback.transform_gives keyed fits buffer).adapt Stop.fault)
      (Gives.pure _)
  | none | ecb | cbc | ctr | stream =>
    rw [mode] at carries
    cases carries

/-- Where a handle stands after some exchanges: it is the handle it was but for the
state of the mode, and that state holds of the exchanged bytes. -/
structure Stands (origin : LiveHandle m) (Holds : Chain → (plaintext ciphertext : Bytes) → Prop)
    (handle : LiveHandle m) (finished : List Exchange) : Prop where
  shape : origin.SameShape handle
  flags : handle.flags = origin.flags
  keyed : handle.keyed = origin.keyed
  live : handle.arena.read .live = origin.arena.read .live
  template : handle.arena.read .template = origin.arena.read .template
  small : handle.carry < origin.blockLength
  holds : Holds handle.chain (Exchange.plaintexts finished) (Exchange.ciphertexts finished)

omit [Monad m] [LawfulMonad m] in
/-- A new chaining value puts a handle where a run begins. -/
theorem stands_afterIv (handle : LiveHandle m) (positive : 0 < handle.blockLength) (iv : Bytes)
    {Holds : Chain → (plaintext ciphertext : Bytes) → Prop}
    (holds : Holds (handle.afterIv iv).1.chain [] []) :
    (handle.afterIv iv).1.Stands Holds (handle.afterIv iv).1 [] :=
  ⟨SameShape.refl _, rfl, rfl, rfl, rfl, positive, holds⟩

/-- The machine keeps the property in a direction, up to what it cannot tell apart. -/
def Keeps (encipher : Bytes → Bytes) (size : Nat) (direction : Direction) (feedback : Feedback)
    (Holds : Chain → (plaintext ciphertext : Bytes) → Prop) : Prop :=
  ∀ (chain after : Chain) (plaintext ciphertext buffer : Bytes), chain.Fits size →
    Holds chain plaintext ciphertext →
    let passed := passBytes encipher feedback chain buffer
    settle after = settle passed.1 →
    Holds after (plaintext ++ direction.plaintext buffer passed.2)
      (ciphertext ++ direction.ciphertext buffer passed.2)

/-- A realignment goes through to a block boundary and keeps the property. -/
def Realigns (m : Type → Type) [Monad m] (size : Nat)
    (Holds : Chain → (plaintext ciphertext : Bytes) → Prop) : Prop :=
  ∀ (chain : Chain) (plaintext ciphertext : Bytes), chain.Fits size →
    Holds chain plaintext ciphertext →
    ∃ after, Gives (CipherFeedback.realign chain : Checked m Chain) after ∧ after.Fits size ∧
      after.carry = 0 ∧ Holds after plaintext ciphertext

/-- A call in a feedback mode is answered as it should be, and the handle stands where
the machine would. -/
theorem Stands.call {origin handle : LiveHandle m} (fitted : origin.Fitted)
    (computes : origin.pin.algorithm.Computes functions)
    {Holds : Chain → (plaintext ciphertext : Bytes) → Prop} {finished : List Exchange}
    (stands : origin.Stands Holds handle finished) {request : Request} {call : MessageCall}
    (asked : request.call? = some call) {feedback : Feedback}
    (carries : origin.mode.feedback? call.direction = some feedback)
    (keeps : Keeps (functions.encrypt (origin.arena.read .live)) origin.blockLength
      call.direction feedback Holds) :
    ∃ next reply events,
      let outcome := answered next reply events
      Yields (handle.respond request) outcome ∧ request.Served origin.keyed outcome ∧
        origin.Stands Holds next (finished ++ (request.exchange? outcome).toList) := by
  have shape := stands.shape
  have fittedNow := fitted.of_sameShape shape
  have width := shape.width
  have computesNow : handle.pin.algorithm.Computes functions := by
    rw [shape.pin]
    exact computes
  have carriesNow : handle.mode.feedback? call.direction = some feedback := by
    rw [shape.mode]
    exact carries
  have small : handle.carry < handle.blockLength := width ▸ stands.small
  obtain ⟨after, given, fits, same⟩ :=
    transform_feedback fittedNow computesNow small carriesNow call.input
  obtain ⟨next, reply, events, yielded, served, ends⟩ :=
    respond_transforms (Mode.free_of_feedback? carriesNow) asked (length_pass _ _ _ _) given
  rw [stands.keyed] at served
  refine ⟨next, reply, events, yielded, served, ?_⟩
  rcases ends with ⟨rfl, exchanged⟩ | ⟨rfl, silent⟩
  · rw [exchanged, Option.toList_some]
    refine ⟨⟨shape.pin, shape.mode, shape.layout⟩, stands.flags, stands.keyed, ?_, ?_, ?_, ?_⟩
    · rw [read_withChain _ _ (Or.inl rfl)]
      exact stands.live
    · rw [read_withChain _ _ (Or.inr rfl)]
      exact stands.template
    · exact width ▸ fits.carry
    · rw [stands.live] at same ⊢
      rw [fittedNow.chain_withChain fits, Exchange.plaintexts_append, Exchange.ciphertexts_append,
        Exchange.plaintexts_singleton, Exchange.ciphertexts_singleton]
      exact keeps handle.chain after _ _ call.input (width ▸ fittedNow.chain_fits small)
        stands.holds same
  · rw [silent, Option.toList_none, List.append_nil]
    exact stands

/-- A realignment goes through, and the handle stands where it did: at a block boundary,
if it may be realigned. -/
theorem Stands.sync {origin handle : LiveHandle m} (fitted : origin.Fitted)
    {Holds : Chain → (plaintext ciphertext : Bytes) → Prop} {finished : List Exchange}
    (stands : origin.Stands Holds handle finished)
    (realigns : Realigns m origin.blockLength Holds) :
    ∃ next,
      let outcome := answered next (.done (.ok ())) []
      Yields (handle.respond .syncFeedback) outcome ∧
        Request.Served origin.keyed .syncFeedback outcome ∧
        (origin.flags.syncEnabled = true → next.carry = 0) ∧
        origin.Stands Holds next finished := by
  have shape := stands.shape
  have fittedNow := fitted.of_sameShape shape
  have width := shape.width
  have served (next : LiveHandle m) :
      Request.Served origin.keyed .syncFeedback (answered next (.done (.ok ())) []) := by
    constructor
    · intro _ asked
      cases asked
    · exact fun _ => rfl
  by_cases carried : (handle.flags.syncEnabled && decide (handle.carry ≠ 0)) = true
  · obtain ⟨after, given, fits, ended, holds⟩ :=
      realigns handle.chain _ _ (width ▸ fittedNow.chain_fits (width ▸ stands.small)) stands.holds
    have realigned : Gives (handle.syncFeedback : Checked m (LiveHandle m))
        (handle.withChain after) := by
      rw [syncFeedback, if_pos carried]
      exact Gives.bind given (Gives.pure _)
    refine ⟨handle.withChain after, respond_syncFeedback_gives realigned, served _,
      fun _ => ended, ?_⟩
    refine ⟨⟨shape.pin, shape.mode, shape.layout⟩, stands.flags, stands.keyed, ?_, ?_,
      fits.carry, ?_⟩
    · rw [read_withChain _ _ (Or.inl rfl)]
      exact stands.live
    · rw [read_withChain _ _ (Or.inr rfl)]
      exact stands.template
    · rw [fittedNow.chain_withChain (width.symm ▸ fits)]
      exact holds
  · have idle : Gives (handle.syncFeedback : Checked m (LiveHandle m)) handle := by
      rw [syncFeedback, if_neg carried]
      exact Gives.pure _
    refine ⟨handle, respond_syncFeedback_gives idle, served _, fun enabled => ?_, stands⟩
    rw [stands.flags, enabled] at carried
    simpa using carried

/-- A run of calls, and of realignments if they keep the property, is answered as it
should be, and the handle stands where the machine would. -/
theorem Stands.run {origin : LiveHandle m} (fitted : origin.Fitted)
    (computes : origin.pin.algorithm.Computes functions)
    {Holds : Chain → (plaintext ciphertext : Bytes) → Prop} {requests : List Request}
    (allowed : ∀ request ∈ requests,
      (∃ call feedback, request.call? = some call ∧
        origin.mode.feedback? call.direction = some feedback ∧
        Keeps (functions.encrypt (origin.arena.read .live)) origin.blockLength call.direction
          feedback Holds) ∨
      request = .syncFeedback ∧ Realigns m origin.blockLength Holds)
    (begins : origin.Stands Holds origin []) :
    ∃ last outcomes, Yields ((Handle.live origin).respondAll requests) (.live last, outcomes) ∧
      List.Forall₂ (Request.Served origin.keyed) requests outcomes ∧
      origin.Stands Holds last (exchanges requests outcomes) := by
  refine Handle.run_keeps (origin.Stands Holds) _ (Request.Served origin.keyed) ?_ allowed begins
  intro handle finished request stands permitted
  rcases permitted with ⟨call, feedback, asked, carries, keeps⟩ | ⟨rfl, realigns⟩
  · exact stands.call fitted computes asked carries keeps
  · obtain ⟨next, yielded, served, _, later⟩ := stands.sync fitted realigns
    refine ⟨next, _, _, yielded, served, ?_⟩
    rw [Request.exchange?_of_call?_none rfl, Option.toList_none, List.append_nil]
    exact later

end LiveHandle

end CipherEngine
