import CipherEngine.Proofs.Handle.FeedbackRun
import CipherEngine.Proofs.Handle.Residue
import Mathlib.Algebra.Ring.Nat

/-!
# Messages that are masked

In the modes that mask a message, a byte comes out as it went in, but for one byte
of keystream. Which byte that is depends on the place in the call, and on the
calls before it through what they had to mask: how many bytes, in output
feedback, and how many blocks, in counter mode.

`Underway` is where a handle stands in such a run, for any property of the state of the
mode and of the exchanges up to now that its calls keep. Between the calls the handle may
be asked what leaves that state alone.
-/
namespace CipherEngine

open Keystream

namespace Exchange

/-- The output is the input, masked at every place with what stands there. -/
structure MaskedWith (pad : (place : Nat) → UInt8) (exchange : Exchange) : Prop where
  length : exchange.output.length = exchange.input.length
  byte : ∀ place, place < exchange.input.length →
    exchange.output.getD place 0 = exchange.input.getD place 0 ^^^ pad place

/-- Every exchange is masked, with what depends on the exchanges before it. -/
def AllMasked (pad : (earlier : List Exchange) → (place : Nat) → UInt8)
    (finished : List Exchange) : Prop :=
  ∀ (index : Nat) (exchange : Exchange), finished[index]? = some exchange →
    exchange.MaskedWith (pad (finished.take index))

/-- Bytes that the exchanges masked. -/
def size (exchanges : List Exchange) : Nat :=
  (exchanges.map fun exchange => exchange.input.length).sum

/-- Every exchange is masked with one keystream, each where the one before has ended. -/
def Consecutive (pad : (position : Nat) → UInt8) (finished : List Exchange) : Prop :=
  AllMasked (fun earlier place => pad (size earlier + place)) finished

/-- Blocks of so many bytes that the exchanges began, each anew. -/
def blocks (length : Nat) (exchanges : List Exchange) : Nat :=
  (exchanges.map fun exchange => Bytes.blockCount length exchange.input.length).sum

/-- The number of the block in which a byte lies, after the exchanges before. -/
def blockAt (length : Nat) (earlier : List Exchange) (place : Nat) : Nat :=
  blocks length earlier + place / length

/-- The exchange at the index has a byte at the place. -/
def Covers (finished : List Exchange) (index place : Nat) : Prop :=
  ∃ exchange, finished[index]? = some exchange ∧ place < exchange.input.length

variable {pad : (earlier : List Exchange) → (place : Nat) → UInt8} {finished : List Exchange}

/-- Where nothing was exchanged, all is masked. -/
theorem allMasked_nil : AllMasked pad [] := by
  intro index exchange found
  cases found

/-- One more exchange is masked with what the exchanges up to now say. -/
theorem AllMasked.concat (masked : AllMasked pad finished) {exchange : Exchange}
    (last : exchange.MaskedWith (pad finished)) : AllMasked pad (finished ++ [exchange]) := by
  intro index other found
  by_cases before : index < finished.length
  · rw [List.getElem?_append_left before] at found
    rw [List.take_append_of_le_length (Nat.le_of_lt before)]
    exact masked index other found
  · have inside := (List.getElem?_eq_some_iff.mp found).1
    rw [List.length_append, List.length_singleton] at inside
    obtain rfl : index = finished.length := by omega
    rw [List.getElem?_concat_length] at found
    obtain rfl := Option.some.inj found
    rwa [List.take_left]

/-- An exchange at the end adds the bytes of its input. -/
theorem size_concat (exchanges : List Exchange) (exchange : Exchange) :
    size (exchanges ++ [exchange]) = size exchanges + exchange.input.length := by
  simp [size]

/-- An exchange at the end adds the blocks that its input begins. -/
theorem blocks_concat (length : Nat) (exchanges : List Exchange) (exchange : Exchange) :
    blocks length (exchanges ++ [exchange]) =
      blocks length exchanges + Bytes.blockCount length exchange.input.length := by
  simp [blocks]

/-- The first exchange begins the keystream, and the others go on behind it. -/
theorem consecutive_cons {pad : (position : Nat) → UInt8} {exchange : Exchange}
    {finished : List Exchange} (masked : Consecutive pad (exchange :: finished)) :
    exchange.MaskedWith pad ∧
      Consecutive (fun position => pad (exchange.input.length + position)) finished := by
  constructor
  · have first := masked 0 exchange rfl
    simpa [size] using first
  · intro index later found
    have next := masked (index + 1) later found
    simpa [size, Nat.add_assoc] using next

/-- Later exchanges begin later blocks. -/
theorem blocks_take_le (length : Nat) (finished : List Exchange) {first second : Nat}
    (order : first ≤ second) :
    blocks length (finished.take first) ≤ blocks length (finished.take second) := by
  obtain ⟨more, rfl⟩ := Nat.exists_eq_add_of_le order
  rw [List.take_add, blocks, blocks, List.map_append, List.sum_append]
  exact Nat.le_add_right _ _

/-- The block of a byte is begun by the exchange that it lies in. -/
theorem Covers.blockAt_lt {length index place : Nat} (covers : Covers finished index place)
    (positive : 0 < length) :
    blockAt length (finished.take index) place < blocks length (finished.take (index + 1)) := by
  obtain ⟨exchange, found, inside⟩ := covers
  have begun := Bytes.div_lt_blockCount inside positive
  rw [blockAt, List.take_add_one, found, Option.toList_some, blocks_concat]
  omega

/-- All of these blocks are counted in the end. -/
theorem Covers.blockAt_lt_blocks {length index place : Nat} (covers : Covers finished index place)
    (positive : 0 < length) :
    blockAt length (finished.take index) place < blocks length finished := by
  have total := blocks_take_le length finished (Nat.le_max_left (index + 1) finished.length)
  rw [List.take_of_length_le (Nat.le_max_right (index + 1) finished.length)] at total
  exact Nat.lt_of_lt_of_le (covers.blockAt_lt positive) total

/-- Bytes with one number of their block lie in one exchange, and there in one block. -/
theorem Covers.eq_of_blockAt_eq {length index place otherIndex otherPlace : Nat}
    (covers : Covers finished index place) (otherCovers : Covers finished otherIndex otherPlace)
    (positive : 0 < length)
    (same : blockAt length (finished.take index) place =
      blockAt length (finished.take otherIndex) otherPlace) :
    index = otherIndex ∧ place / length = otherPlace / length := by
  have apart {first second placeInFirst placeInSecond : Nat}
      (begins : Covers finished first placeInFirst) (order : first < second) :
      blockAt length (finished.take first) placeInFirst <
        blockAt length (finished.take second) placeInSecond :=
    Nat.lt_of_lt_of_le (begins.blockAt_lt positive)
      (Nat.le_trans (blocks_take_le length finished order) (Nat.le_add_right _ _))
  obtain before | rfl | after := Nat.lt_trichotomy index otherIndex
  · exact absurd same (Nat.ne_of_lt (apart covers before))
  · exact ⟨rfl, Nat.add_left_cancel same⟩
  · exact absurd same.symm (Nat.ne_of_lt (apart otherCovers after))

end Exchange

/-- The request gives neither a key nor a chaining value, and is no reset. -/
structure Request.KeepsKeystream (request : Request) : Prop where
  key : request.key? = none
  iv : request.iv? = none
  reset : request ≠ .reset

/-- Whether a request keeps the keystream can be read off it. -/
instance : DecidablePred Request.KeepsKeystream := fun request =>
  decidable_of_iff (request.key? = none ∧ request.iv? = none ∧ request ≠ .reset)
    ⟨fun ⟨key, iv, reset⟩ => ⟨key, iv, reset⟩, fun ⟨key, iv, reset⟩ => ⟨key, iv, reset⟩⟩

/-- A property of a chain and of the exchanges that have led to it that a feedback mode keeps: the
machine keeps it with every buffer, and it looks at no more of the chain than the machine. -/
structure Mode.Keeps (mode : Mode) (encipher : Bytes → Bytes) (size : Nat)
    (Holds : Chain → List Exchange → Prop) : Prop where
  pass : ∀ {chain : Chain} {finished : List Exchange} {direction : Direction} {feedback : Feedback},
    mode.feedback? direction = some feedback → chain.Fits size → Holds chain finished →
      ∀ input,
        let passed := passBytes encipher feedback chain input
        Holds passed.1 (finished ++ [⟨direction, input, passed.2⟩])
  alike : ∀ {chain other : Chain} {finished : List Exchange}, Alike chain other →
    Holds chain finished → Holds other finished

/-- A property of the plaintext and the ciphertext that the machine keeps with every buffer. -/
theorem Mode.Keeps.of_streams {mode : Mode} {encipher : Bytes → Bytes} {size : Nat}
    {Holds : Chain → (plaintext ciphertext : Bytes) → Prop}
    (pass : ∀ {chain : Chain} {plaintext ciphertext : Bytes} {direction : Direction}
      {feedback : Feedback}, mode.feedback? direction = some feedback → chain.Fits size →
        Holds chain plaintext ciphertext → ∀ input,
          let passed := passBytes encipher feedback chain input
          Holds passed.1 (plaintext ++ direction.plaintext input passed.2)
            (ciphertext ++ direction.ciphertext input passed.2))
    (alike : ∀ {chain other : Chain} {plaintext ciphertext : Bytes}, Alike chain other →
      Holds chain plaintext ciphertext → Holds other plaintext ciphertext) :
    mode.Keeps encipher size fun chain finished =>
      Holds chain (Exchange.plaintexts finished) (Exchange.ciphertexts finished) := by
  refine ⟨?_, alike⟩
  intro chain finished direction feedback carries fits holds input passed
  rw [Exchange.plaintexts_append, Exchange.ciphertexts_append, Exchange.plaintexts_singleton,
    Exchange.ciphertexts_singleton]
  exact pass carries fits holds input

/-- What is left of a handle by a request that makes no call, gives no key and resets nothing:
all but the options, and the chaining value or the counter where the request gives one. -/
structure Request.Spares {m : Type → Type} (request : Request) (handle next : LiveHandle m) : Prop
    extends LiveHandle.SameShape handle next where
  keyed : next.keyed = handle.keyed
  sync : next.flags.syncEnabled = handle.flags.syncEnabled
  live : next.arena.read .live = handle.arena.read .live
  previous : next.arena.read .previous = handle.arena.read .previous
  iv : request.iv? = none → next.arena.read .iv = handle.arena.read .iv
  counter : request.counter? = none → next.arena.read .counter = handle.arena.read .counter
  carry : request.iv? = none ∨ handle.carry = 0 → next.carry = handle.carry
  less : next.carry ≤ handle.carry

namespace LiveHandle

variable {m : Type → Type}

/-- A handle that is left as it was. -/
theorem spares_refl (request : Request) (handle : LiveHandle m) : request.Spares handle handle :=
  ⟨SameShape.refl handle, rfl, rfl, rfl, rfl, fun _ => rfl, fun _ => rfl, fun _ => rfl,
    Nat.le_refl _⟩

/-- A handle of which only the options change, and not whether it may be realigned. -/
theorem spares_flags (request : Request) (handle : LiveHandle m) {flags : Flags}
    (sync : flags.syncEnabled = handle.flags.syncEnabled) :
    request.Spares handle { handle with flags } :=
  ⟨⟨rfl, rfl, rfl⟩, rfl, sync, rfl, rfl, fun _ => rfl, fun _ => rfl, fun _ => rfl, Nat.le_refl _⟩

/-- Where a handle stands in a run that masks: it has its shape, its key and its option for
realignment, and the state of the mode holds of the exchanges. -/
structure Underway (Holds : Chain → List Exchange → Prop) (origin handle : LiveHandle m)
    (finished : List Exchange) : Prop where
  shape : origin.SameShape handle
  keyed : handle.keyed = origin.keyed
  sync : handle.flags.syncEnabled = origin.flags.syncEnabled
  live : handle.arena.read .live = origin.arena.read .live
  small : handle.carry < origin.blockLength
  holds : Holds handle.chain finished

/-- A handle is where a run from it begins. -/
theorem Underway.start {Holds : Chain → List Exchange → Prop} {handle : LiveHandle m}
    (small : handle.carry < handle.blockLength) (holds : Holds handle.chain []) :
    Underway Holds handle handle [] :=
  ⟨SameShape.refl handle, rfl, rfl, rfl, small, holds⟩

variable [Monad m] [LawfulMonad m]

/-- A request that makes no call, gives no key and resets nothing is answered and spares the
handle, unless it realigns. -/
theorem Fitted.respond_spares {handle : LiveHandle m} (fitted : handle.Fitted)
    {request : Request} (silent : request.call? = none) (noKey : request.key? = none)
    (noReset : request ≠ .reset)
    (idle : request = .syncFeedback → handle.flags.syncEnabled = false ∨ handle.carry = 0) :
    ∃ next reply events, Yields (handle.respond request) (next.answered reply events) ∧
      request.Served handle.keyed (next.answered reply events) ∧ request.Spares handle next := by
  have replied (next : LiveHandle m) (reply : Reply) (events : List Event)
      (other : request ≠ .syncFeedback)
      (yielded : Yields (handle.respond request) (next.answered reply events))
      (spared : request.Spares handle next) :
      ∃ next reply events, Yields (handle.respond request) (next.answered reply events) ∧
        request.Served handle.keyed (next.answered reply events) ∧ request.Spares handle next := by
    refine ⟨next, reply, events, yielded, ⟨fun call asked => ?_, fun same => absurd same other⟩,
      spared⟩
    rw [silent] at asked
    cases asked
  cases request with
  | encrypt | decrypt | encryptInPlace | decryptInPlace => cases silent
  | setKey key => cases noKey
  | reset => exact absurd rfl noReset
  | setIv iv =>
    have given := Yields.of_eq (fitted.respond_setIv iv)
    refine replied _ _ _ (by simp) given ⟨afterIv_sameShape handle iv, rfl, rfl,
      read_afterIv handle iv (by decide), read_afterIv handle iv (by decide),
      (fun given => by cases given), fun _ => read_afterIv handle iv (by decide), ?_, Nat.zero_le _⟩
    rintro (given | boundary)
    · cases given
    · exact boundary.symm
  | setCounter counter =>
    obtain ⟨arena, only, layout, others⟩ := setCounter_only handle counter
    refine replied (handle.afterCounter counter).1 _ _ (by simp)
      (Yields.of_eq (fitted.respond_setCounter counter)) ?_
    rw [only]
    exact ⟨⟨rfl, rfl, layout⟩, rfl, rfl, others .live (by decide), others .previous (by decide),
      fun _ => others .iv (by decide), (fun given => by cases given), fun _ => rfl,
      Nat.le_refl _⟩
  | syncFeedback =>
    have stays : Gives (handle.syncFeedback : Checked m (LiveHandle m)) handle := by
      rw [syncFeedback_idle (idle rfl)]
      exact Gives.pure _
    exact ⟨handle, _, _, respond_syncFeedback_gives stays,
      ⟨(fun _ asked => by cases asked), fun _ => rfl⟩, spares_refl _ handle⟩
  | setStealing enable =>
    refine replied (handle.setStealing enable).1 _ _ (by simp) (Yields.pure _) ?_
    rw [setStealing]
    split
    · exact spares_refl _ handle
    · exact spares_flags _ handle rfl
  | setMac enable =>
    refine replied (handle.setMac enable).1 _ _ (by simp) (Yields.pure _) ?_
    rw [setMac]
    split
    · exact spares_refl _ handle
    · exact spares_flags _ handle rfl
  | algorithm | mode | flags | blockLength | isKeyed | isSecure =>
    exact replied _ _ _ (by simp) (Yields.pure _) (spares_refl _ handle)

variable {Holds : Chain → List Exchange → Prop} {origin handle : LiveHandle m}
  {finished : List Exchange}

/-- A call of which the transform keeps the property leaves the handle where it should stand. -/
theorem Underway.call (underway : Underway Holds origin handle finished) (fitted : origin.Fitted)
    (free : origin.mode ≠ .cbc ∧ origin.mode ≠ .ecb) {request : Request} {call : MessageCall}
    (asked : request.call? = some call) {after : Chain} {output : Bytes}
    (given : Gives (handle.transform call.direction call.input) (handle.withChain after, output))
    (fits : after.Fits origin.blockLength) (width : output.length = call.input.length)
    (holds : Holds after (finished ++ [⟨call.direction, call.input, output⟩])) :
    ∃ next reply events,
      let outcome := answered next reply events
      Yields (handle.respond request) outcome ∧ request.Served origin.keyed outcome ∧
        Underway Holds origin next (finished ++ (request.exchange? outcome).toList) := by
  have shape := underway.shape
  have freeNow : handle.mode ≠ .cbc ∧ handle.mode ≠ .ecb := by
    rw [shape.mode]
    exact free
  obtain ⟨next, reply, events, yielded, served, ends⟩ :=
    respond_transforms freeNow asked width given
  rw [underway.keyed] at served
  refine ⟨next, reply, events, yielded, served, ?_⟩
  rcases ends with ⟨rfl, exchanged⟩ | ⟨rfl, silent⟩
  · rw [exchanged, Option.toList_some]
    constructor
    · exact shape.trans (withChain_sameShape handle after)
    · exact underway.keyed
    · exact underway.sync
    · exact (read_withChain _ _ (Or.inl rfl)).trans underway.live
    · exact fits.carry
    · rw [(fitted.of_sameShape shape).chain_withChain (shape.width ▸ fits)]
      exact holds
  · rw [silent, Option.toList_none, List.append_nil]
    exact underway

/-- A request that spares the state of the mode leaves the handle where it stood. -/
theorem Underway.silent (underway : Underway Holds origin handle finished)
    (fitted : origin.Fitted) {request : Request} (silent : request.call? = none)
    (noKey : request.key? = none)
    (noReset : request ≠ .reset)
    (idle : request = .syncFeedback → origin.flags.syncEnabled = false ∨ handle.carry = 0)
    (kept : ∀ next, request.Spares handle next → Holds next.chain finished) :
    ∃ next reply events,
      let outcome := answered next reply events
      Yields (handle.respond request) outcome ∧ request.Served origin.keyed outcome ∧
        Underway Holds origin next (finished ++ (request.exchange? outcome).toList) := by
  rw [← underway.sync] at idle
  obtain ⟨next, reply, events, yielded, served, spared⟩ :=
    (fitted.of_sameShape underway.shape).respond_spares silent noKey noReset idle
  rw [underway.keyed] at served
  refine ⟨next, reply, events, yielded, served, ?_⟩
  rw [Request.exchange?_of_call?_none silent, Option.toList_none, List.append_nil]
  constructor
  · exact underway.shape.trans spared.toSameShape
  · exact spared.keyed.trans underway.keyed
  · exact spared.sync.trans underway.sync
  · exact spared.live.trans underway.live
  · exact Nat.lt_of_le_of_lt spared.less underway.small
  · exact kept next spared

variable {functions : BlockFunctions}

/-- In a feedback mode, a request that keeps the keystream is answered as it should be, and the
handle stands where the machine would, unless it may be realigned. -/
theorem Underway.feed (underway : Underway Holds origin handle finished) (fitted : origin.Fitted)
    (computes : origin.pin.algorithm.Computes functions)
    (feeds : origin.mode = .cfb ∨ origin.mode = .ofb)
    (keeps : origin.mode.Keeps (functions.encrypt (origin.arena.read .live)) origin.blockLength
      Holds)
    {request : Request} (allowed : request.KeepsKeystream)
    (still : request = .syncFeedback → origin.flags.syncEnabled = false) :
    ∃ next reply events,
      let outcome := answered next reply events
      Yields (handle.respond request) outcome ∧ request.Served origin.keyed outcome ∧
        Underway Holds origin next (finished ++ (request.exchange? outcome).toList) := by
  have shape := underway.shape
  cases asked : request.call? with
  | some call =>
    obtain ⟨feedback, carries⟩ := Mode.exists_feedback feeds call.direction
    have fittedNow := fitted.of_sameShape shape
    have computesNow : handle.pin.algorithm.Computes functions := by
      rw [shape.pin]
      exact computes
    have carriesNow : handle.mode.feedback? call.direction = some feedback := by
      rw [shape.mode]
      exact carries
    have small : handle.carry < handle.blockLength := shape.width ▸ underway.small
    obtain ⟨after, given, fits, same⟩ :=
      transform_feedback fittedNow computesNow small carriesNow call.input
    rw [underway.live] at given same
    refine underway.call fitted (Mode.free_of_feedback? carries) asked given (shape.width ▸ fits)
      (length_pass _ _ _ _) ?_
    exact keeps.alike (.of_settle same.symm)
      (keeps.pass carries (shape.width ▸ fittedNow.chain_fits small) underway.holds call.input)
  | none =>
    apply underway.silent fitted asked allowed.key allowed.reset fun sync => .inl (still sync)
    intro next spared
    exact keeps.alike ⟨(spared.iv allowed.iv).symm, (spared.carry (.inl allowed.iv)).symm,
      fun _ => spared.previous.symm⟩ underway.holds

/-- In a feedback mode, what the machine keeps, a run keeps that leaves the keystream alone. -/
theorem respondAll_feeds (fitted : handle.Fitted)
    (computes : handle.pin.algorithm.Computes functions)
    (feeds : handle.mode = .cfb ∨ handle.mode = .ofb) (small : handle.carry < handle.blockLength)
    (keeps : handle.mode.Keeps (functions.encrypt (handle.arena.read .live)) handle.blockLength
      Holds)
    (holds : Holds handle.chain []) {requests : List Request}
    (allowed : ∀ request ∈ requests, request.KeepsKeystream ∧
      (request = .syncFeedback → handle.flags.syncEnabled = false)) :
    ∃ last outcomes,
      Yields ((Handle.live handle).respondAll requests) (.live last, outcomes) ∧
      List.Forall₂ (Request.Served handle.keyed) requests outcomes ∧
      Holds last.chain (exchanges requests outcomes) := by
  obtain ⟨last, outcomes, yielded, served, ends⟩ :=
    Handle.run_keeps (Underway Holds handle) _ (Request.Served handle.keyed)
      (fun _ _ _ underway allowed =>
        underway.feed fitted computes feeds keeps allowed.1 allowed.2)
      allowed (Underway.start small holds)
  exact ⟨last, outcomes, yielded, served, ends.holds⟩

end LiveHandle

end CipherEngine
