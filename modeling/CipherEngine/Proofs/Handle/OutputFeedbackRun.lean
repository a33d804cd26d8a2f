import CipherEngine.Proofs.Chaining.IteratedStream
import CipherEngine.Proofs.Handle.MaskedRun
import CipherEngine.Proofs.Specimen

/-!
# Output feedback over whole runs

From a new chaining value on, all calls to a handle in output feedback are masked
with one keystream, the chaining value encrypted again and again. Each byte takes the
next byte of it, so what masks a byte depends on how many bytes were before it, and
neither on what they were nor on how calls have cut them or which way they went.

The handle may be in the middle of a keystream block when the run begins, and then
the rest of that block comes first.
-/
namespace CipherEngine

open OutputFeedback

/-- The keystream byte that masks a place of a call after a new chaining value: the chaining
value is encrypted once for the first block, and once more for every block of bytes that were
masked before this one. -/
def OutputFeedback.padAfter (encipher : Bytes → Bytes) (iv : Bytes) (earlier : List Exchange)
    (place : Nat) : UInt8 :=
  (encipher^[(Exchange.size earlier + place) / iv.length + 1] iv).getD
    ((Exchange.size earlier + place) % iv.length) 0

/-- What a chain keeps of the keystream after a new chaining value: the exchanges are masked with
it in their order, and the chain is at the place that they lead to. -/
structure OutputFeedback.Placed (encipher : Bytes → Bytes) (iv : Bytes) (chain : Chain)
    (finished : List Exchange) : Prop where
  bytes : Exchange.AllMasked (padAfter encipher iv) finished
  place : At encipher iv (iv.length + Exchange.size finished) chain

/-- The machine goes on in the keystream with every buffer, in either direction. -/
theorem OutputFeedback.keeps_placed {encipher : Bytes → Bytes} {iv : Bytes} {size : Nat}
    (sized : iv.length = size) (positive : 0 < size)
    (width : ∀ block : Bytes, block.length = size → (encipher block).length = size) :
    Mode.ofb.Keeps encipher size (Placed encipher iv) := by
  subst sized
  constructor
  · intro chain finished direction feedback carries fits placed input passed
    cases carries
    obtain ⟨bytes, ends⟩ := placed.place.pass rfl width fits input
    constructor
    · refine placed.bytes.concat ⟨Keystream.length_pass _ _ _ _, fun place inside => ?_⟩
      rw [bytes place inside, Nat.add_assoc, padAt_of_encrypted positive, padAfter]
    · rw [Exchange.size_concat, ← Nat.add_assoc]
      exact ends
  · intro chain other finished alike placed
    exact ⟨placed.bytes, placed.place.congr alike⟩

namespace LiveHandle

variable {m : Type → Type} [Monad m] [LawfulMonad m] {functions : BlockFunctions}

/-- In output feedback on a handle that does not realign, after a new chaining value, every
call goes through that has a key and room, whatever is asked in between but keys, chaining
values and resets, and the calls are masked with one keystream: the byte at a place is masked
with the byte of the chaining value, encrypted again and again, that as many bytes stand
before as were masked since the chaining value was given, over all calls. -/
theorem outputFeedback_masks_calls {handle : LiveHandle m} (reachable : handle.Reachable)
    (feedback : handle.mode = .ofb) (still : handle.flags.syncEnabled = false)
    (computes : handle.pin.algorithm.Computes functions) (iv : Bytes) {requests : List Request}
    (keep : ∀ request ∈ requests, request.KeepsKeystream) :
    ∃ last set outcomes,
      Yields ((Handle.live handle).respondAll (.setIv iv :: requests)) (last, set :: outcomes) ∧
      List.Forall₂ (Request.Served handle.keyed) requests outcomes ∧
      Exchange.AllMasked (padAfter (functions.encrypt (handle.arena.read .live))
        (Bytes.fit handle.blockLength iv)) (exchanges requests outcomes) := by
  have fitted := reachable.fitted
  have positive : 0 < handle.blockLength := fitted.positive (by rw [feedback]; rfl)
  have set : Yields (handle.respond (.setIv iv))
      ((handle.afterIv iv).1.answered (.done (.ok ())) (handle.afterIv iv).2) :=
    Yields.of_eq (fitted.respond_setIv iv)
  have value : (handle.afterIv iv).1.arena.read .iv = Bytes.fit handle.blockLength iv :=
    congrArg Chain.iv (fitted.chain_afterIv iv)
  have live : (handle.afterIv iv).1.arena.read .live = handle.arena.read .live :=
    read_afterIv handle iv (by decide)
  have sized : (Bytes.fit handle.blockLength iv).length = handle.blockLength := Bytes.length_fit _ _
  have begins : Placed (functions.encrypt (handle.arena.read .live))
      (Bytes.fit handle.blockLength iv) (handle.afterIv iv).1.chain [] := by
    refine ⟨Exchange.allMasked_nil, ?_⟩
    rw [← value]
    exact At.start _ (Nat.zero_le _)
  have keeps : handle.mode.Keeps (functions.encrypt ((handle.afterIv iv).1.arena.read .live))
      handle.blockLength
      (Placed (functions.encrypt (handle.arena.read .live)) (Bytes.fit handle.blockLength iv)) := by
    rw [live, feedback]
    exact keeps_placed sized positive (fitted.length_encrypt (by rw [feedback]; rfl) computes)
  obtain ⟨last, outcomes, yielded, served, placed⟩ :=
    respondAll_feeds (fitted.of_sameShape (afterIv_sameShape handle iv)) computes (.inr feedback)
      positive keeps begins fun request member => ⟨keep request member, fun _ => still⟩
  exact ⟨.live last, _, outcomes, Handle.respondAll_cons set yielded, served, placed.bytes⟩

/-- The specimen in output feedback: calls both ways that end inside a block, a realignment
that the handle does not allow, and a call to the end of the second block. -/
theorem outputFeedback_masks_calls_specimen :
    let requests := Specimen.calls ++ [.syncFeedback, .decryptInPlace (Bytes.zeros 11)]
    ∃ last set outcomes,
      Yields ((Handle.live (Specimen.keyed .ofb {})).respondAll (.setIv [1, 2, 3] :: requests))
        (last, set :: outcomes) ∧
      List.Forall₂ (Request.Served true) requests outcomes ∧
      Exchange.AllMasked (padAfter Standin.Flip.complement (Bytes.fit 16 [1, 2, 3]))
        (exchanges requests outcomes) := by
  intro requests
  have keep : ∀ request ∈ requests, request.KeepsKeystream := by decide
  exact outputFeedback_masks_calls (Specimen.reachable_keyed .ofb {} rfl rfl) rfl rfl
    Specimen.computes [1, 2, 3] keep

end LiveHandle

end CipherEngine
