import CipherEngine.Proofs.Chaining.CounterStream
import CipherEngine.Proofs.Handle.MaskedRun
import CipherEngine.Proofs.Specimen

/-!
# Counter mode over whole runs

A handle in counter mode has one state between calls, its counter. It is zero after
opening and after a reset, or the block that it was last set to, and a call takes it
on by the blocks that the call begins, an empty call by none. So the counter that
masks a byte is known from the lengths of the calls before, whatever their
directions, and before the counter has gone all the way round no two blocks are
masked with one.

`CountsFrom` is the history of the counter, and `Counted` is what every request keeps
that gives no key and no counter and does not reset the handle.
-/
namespace CipherEngine

open Counter

/-- The byte that masks a place of a call: of the block under the counter that is as many
blocks on as the exchanges before, and this one up to the place, have begun. -/
def Counter.padAt (encipher : Bytes → Bytes) (start : Bytes) (earlier : List Exchange)
    (place : Nat) : UInt8 :=
  (encipher (onward start (Exchange.blockAt start.length earlier place))).getD
    (place % start.length) 0

/-- The request gives neither a key nor a counter, and is no reset. -/
structure Request.KeepsCounter (request : Request) : Prop where
  key : request.key? = none
  counter : request.counter? = none
  reset : request ≠ .reset

/-- Whether a request keeps the counter can be read off it. -/
instance : DecidablePred Request.KeepsCounter := fun request =>
  decidable_of_iff (request.key? = none ∧ request.counter? = none ∧ request ≠ .reset)
    ⟨fun ⟨key, counter, reset⟩ => ⟨key, counter, reset⟩,
      fun ⟨key, counter, reset⟩ => ⟨key, counter, reset⟩⟩

namespace LiveHandle

variable {m : Type → Type}

/-- A counter that is refused leaves the handle as it was. -/
theorem afterCounter_refused {handle : LiveHandle m} {counter : Option Bytes} {cause : Refusal}
    (refused : (handle.afterCounter counter).2 = .error cause) :
    (handle.afterCounter counter).1 = handle := by
  cases counter with
  | none => cases refused
  | some block =>
    rw [afterCounter] at refused ⊢
    split at refused
    · cases refused
    · next misfits =>
      split at refused
      · cases refused
      · next filled => rw [if_neg misfits, if_neg filled]

/-- An empty counter stands for zero. -/
theorem counterAfter_empty (size : Nat) (held : Bytes) :
    counterAfter size held (some []) = Bytes.zeros size := by
  by_cases fills : ([] : Bytes).length = size
  · subst fills
    rfl
  · rw [counterAfter, if_neg fills]
    rfl

/-- A counter with bytes in it that is accepted takes the place of the last. -/
theorem counterAfter_filled {handle : LiveHandle m} {block : Bytes} (filled : block ≠ [])
    (accepted : (handle.afterCounter (some block)).2 = .ok ()) (held : Bytes) :
    counterAfter handle.blockLength held (some block) = block := by
  by_cases fills : block.length = handle.blockLength
  · rw [counterAfter, if_pos fills]
  · have something : block.isEmpty = false := by simpa using filled
    rw [afterCounter, if_neg fills, something] at accepted
    cases accepted

/-- A reset that is refused leaves the handle as it was. -/
theorem afterReset_refused {handle : LiveHandle m} {cause : Refusal}
    (refused : handle.afterReset.2 = .error cause) : handle.afterReset.1 = handle := by
  rw [afterReset] at refused ⊢
  split at refused
  · cases refused
  · next unkeyed => rw [if_neg unkeyed]

variable [Monad m]

/-- The counter that a handle is given: it begins at zero, a reset or an empty counter brings
it back to zero, and a block takes its place. Between that and the first call the handle may
be asked anything else, and what is refused gives it nothing. -/
inductive CountsFrom : LiveHandle m → (start : Bytes) → Prop where
  | opened {registry : Registry m} {id : AlgorithmId} {mode : Mode} {flags : Flags}
    {machine : Machine} {handle : LiveHandle m} :
    (Handle.openOn registry id mode flags machine).value = .ok (.live handle) →
      CountsFrom handle (Bytes.zeros handle.blockLength)
  | zeroed {earlier handle : LiveHandle m} {request : Request} :
    earlier.Reachable →
      request = .reset ∨ request = .setCounter none ∨ request = .setCounter (some []) →
      MayReturn (earlier.respond request) (handle.answered (.done (.ok ())) []) →
      CountsFrom handle (Bytes.zeros handle.blockLength)
  | given {earlier handle : LiveHandle m} {block : Bytes} :
    earlier.Reachable → block ≠ [] →
      MayReturn (earlier.respond (.setCounter (some block))) (handle.answered (.done (.ok ())) []) →
      CountsFrom handle block
  | kept {earlier handle : LiveHandle m} {start : Bytes} {request : Request} {reply : Reply}
    {events : List Event} :
    CountsFrom earlier start → request.call? = none →
      request.counter? = none ∧ request ≠ .reset ∨ (∃ cause, reply = .done (.error cause)) →
      MayReturn (earlier.respond request) (handle.answered reply events) →
      CountsFrom handle start

/-- Such a handle can be reached. -/
theorem CountsFrom.reachable {handle : LiveHandle m} {start : Bytes}
    (counts : handle.CountsFrom start) : handle.Reachable := by
  induction counts with
  | opened given => exact .opened given
  | zeroed reachable _ returned => exact .requested reachable returned rfl
  | given reachable _ returned => exact .requested reachable returned rfl
  | kept _ _ _ returned inductionHypothesis => exact .requested inductionHypothesis returned rfl

variable [LawfulMonad m] {functions : BlockFunctions}

/-- In counter mode a transform masks with the keystream from the counter on, and takes the
counter on by the blocks that it begins. -/
theorem transform_counter {handle : LiveHandle m} (fitted : handle.Fitted)
    (computes : handle.pin.algorithm.Computes functions) (counting : handle.mode = .ctr)
    (small : handle.carry < handle.blockLength) (direction : Direction) (buffer : Bytes) :
    let counter := handle.arena.read .counter
    let encipher := functions.encrypt (handle.arena.read .live)
    let count := Bytes.blockCount handle.blockLength buffer.length
    ∃ after, Gives (handle.transform direction buffer)
        (handle.withChain after, Bytes.mask buffer (keystream encipher counter count)) ∧
      after.Fits handle.blockLength ∧ after.carry = handle.carry ∧
      after.counter = onward counter count := by
  intro counter encipher count
  have chains : handle.mode.chainsBlocks = true := by
    rw [counting]
    rfl
  obtain ⟨cipher, available, context, keyed⟩ := fitted.cipher_eq chains computes
  have fits := fitted.chain_fits small
  have given := Counter.transform_gives keyed fits buffer
  rw [context] at given
  refine ⟨{ handle.chain with
      counter := successor^[count] counter, scratch := Bytes.zeros handle.blockLength }, ?_,
    ⟨fits.iv, fits.previous, ?_, Bytes.length_zeros _, fits.carry⟩, rfl,
    iterate_eq_onward counter count⟩
  · rw [transform, counting]
    exact chained_gives available given
  · exact (length_iterate _ _).trans fits.counter

/-- What a handle that counts keeps: the exchanges are masked with the counters that were their
turn, nothing is carried, and the counter is on by the blocks that were begun. -/
structure Counted (encipher : Bytes → Bytes) (start : Bytes) (chain : Chain)
    (finished : List Exchange) : Prop where
  bytes : Exchange.AllMasked (padAt encipher start) finished
  rests : chain.carry = 0
  counter : chain.counter = onward start (Exchange.blocks start.length finished)

/-- A call masks with the counters that are its turn, and uses them up. -/
theorem Underway.countOn {origin handle : LiveHandle m} (fitted : origin.Fitted)
    (computes : origin.pin.algorithm.Computes functions) (counting : origin.mode = .ctr)
    {finished : List Exchange} {start : Bytes} (sized : start.length = origin.blockLength)
    (underway : Underway (Counted (functions.encrypt (origin.arena.read .live)) start) origin handle
      finished)
    (direction : Direction) (input : Bytes) :
    ∃ after output, Gives (handle.transform direction input) (handle.withChain after, output) ∧
      after.Fits origin.blockLength ∧ output.length = input.length ∧
      Counted (functions.encrypt (origin.arena.read .live)) start after
        (finished ++ [⟨direction, input, output⟩]) := by
  have shape := underway.shape
  have fittedNow := fitted.of_sameShape shape
  have chains : origin.mode.chainsBlocks = true := by
    rw [counting]
    rfl
  have positive := fitted.positive chains
  have computesNow : handle.pin.algorithm.Computes functions := by
    rw [shape.pin]
    exact computes
  obtain ⟨masked, boundary, counter⟩ := underway.holds
  have small : handle.carry < handle.blockLength := shape.width ▸ underway.small
  obtain ⟨after, given, fits, carry, ends⟩ :=
    transform_counter fittedNow computesNow (shape.mode.trans counting) small direction input
  change handle.arena.read .counter = _ at counter
  rw [shape.width] at fits
  rw [shape.width, underway.live, counter] at given
  rw [shape.width, counter, onward_onward] at ends
  refine ⟨after, _, given, fits, Bytes.length_mask _ _,
    masked.concat ⟨Bytes.length_mask _ _, ?_⟩, carry.trans boundary, ?_⟩
  · intro place inside
    have begun := Bytes.div_lt_blockCount inside positive
    have encipherWidth := fitted.length_encrypt chains computes
    have counterWidth := (length_onward start (Exchange.blocks start.length finished)).trans sized
    rw [Bytes.getD_mask _ inside, getD_keystream encipherWidth positive counterWidth begun,
      onward_onward, padAt, sized, Exchange.blockAt]
  · rw [Exchange.blocks_concat, ends, sized]

/-- What keeps the counter keeps a handle where it should stand, calls included. -/
theorem Underway.count {origin handle : LiveHandle m} (fitted : origin.Fitted)
    (computes : origin.pin.algorithm.Computes functions) (counting : origin.mode = .ctr)
    {finished : List Exchange} {start : Bytes} (sized : start.length = origin.blockLength)
    (underway : Underway (Counted (functions.encrypt (origin.arena.read .live)) start) origin handle
      finished)
    {request : Request} (keeps : request.KeepsCounter) :
    ∃ next reply events,
      let outcome := answered next reply events
      Yields (handle.respond request) outcome ∧ request.Served origin.keyed outcome ∧
        Underway (Counted (functions.encrypt (origin.arena.read .live)) start) origin next
          (finished ++ (request.exchange? outcome).toList) := by
  cases asked : request.call? with
  | some call =>
    obtain ⟨after, output, given, fits, width, counted⟩ :=
      underway.countOn fitted computes counting sized call.direction call.input
    have free : origin.mode ≠ .cbc ∧ origin.mode ≠ .ecb := by
      rw [counting]
      decide
    exact underway.call fitted free asked given fits width counted
  | none =>
    obtain ⟨masked, rests, counter⟩ := underway.holds
    apply underway.silent fitted asked keeps.key keeps.reset (fun _ => .inr rests)
    intro next spared
    exact ⟨masked, (spared.carry (Or.inr rests)).trans rests,
      (spared.counter keeps.counter).trans counter⟩

/-- In counter mode a run is masked with the counters from the one that the handle has on. -/
theorem respondAll_counts {handle : LiveHandle m} (fitted : handle.Fitted)
    (computes : handle.pin.algorithm.Computes functions) (counting : handle.mode = .ctr)
    (boundary : handle.carry = 0) {requests : List Request}
    (keep : ∀ request ∈ requests, request.KeepsCounter) :
    ∃ last outcomes,
      Yields ((Handle.live handle).respondAll requests) (.live last, outcomes) ∧
      List.Forall₂ (Request.Served handle.keyed) requests outcomes ∧
      Counted (functions.encrypt (handle.arena.read .live)) (handle.arena.read .counter) last.chain
        (exchanges requests outcomes) := by
  have sized : (handle.arena.read .counter).length = handle.blockLength :=
    (Arena.length_read _ _).trans (fitted.size_eq (by decide))
  have positive : 0 < handle.blockLength := fitted.positive (by rw [counting]; rfl)
  have counted : Counted (functions.encrypt (handle.arena.read .live))
      (handle.arena.read .counter) handle.chain [] :=
    ⟨Exchange.allMasked_nil, boundary, (onward_zero _).symm⟩
  obtain ⟨last, outcomes, yielded, served, ends⟩ :=
    Handle.run_keeps _ Request.KeepsCounter (Request.Served handle.keyed)
      (fun _ _ _ underway keeps => underway.count fitted computes counting sized keeps) keep
      (Underway.start (boundary ▸ positive) counted)
  exact ⟨last, outcomes, yielded, served, ends.holds⟩

/-- What a counter may leave and reply is what it does. -/
theorem Fitted.eq_of_setCounter {earlier handle : LiveHandle m} (fitted : earlier.Fitted)
    {counter : Option Bytes} {result : Except Refusal Unit} {events : List Event}
    (returned : MayReturn (earlier.respond (.setCounter counter))
      (handle.answered (.done result) events)) :
    handle = (earlier.afterCounter counter).1 ∧ result = (earlier.afterCounter counter).2 := by
  rw [fitted.respond_setCounter] at returned
  have outcome := returned _ (Yields.pure _)
  simp only [answered, Outcome.mk.injEq, Handle.live.injEq, Except.ok.injEq,
    Reply.done.injEq] at outcome
  exact ⟨outcome.1, outcome.2.1⟩

/-- What a reset may leave and reply is what it does. -/
theorem eq_of_reset {earlier handle : LiveHandle m} {result : Except Refusal Unit}
    {events : List Event}
    (returned : MayReturn (earlier.respond .reset) (handle.answered (.done result) events)) :
    handle = earlier.afterReset.1 ∧ result = earlier.afterReset.2 := by
  rw [respond_reset] at returned
  have outcome := returned _ (Yields.pure _)
  simp only [answered, Outcome.mk.injEq, Handle.live.injEq, Except.ok.injEq,
    Reply.done.injEq] at outcome
  exact ⟨outcome.1, outcome.2.1⟩

/-- Where nothing is carried, the counter stays under requests that make no call and are
neither a reset nor a counter that is accepted. -/
theorem Fitted.read_counter_of_kept {earlier handle : LiveHandle m} (fitted : earlier.Fitted)
    (boundary : earlier.carry = 0) {request : Request} {reply : Reply} {events : List Event}
    (silent : request.call? = none)
    (left : request.counter? = none ∧ request ≠ .reset ∨ ∃ cause, reply = .done (.error cause))
    (returned : MayReturn (earlier.respond request) (handle.answered reply events)) :
    handle.arena.read .counter = earlier.arena.read .counter := by
  by_cases keeps : request.KeepsCounter
  · obtain ⟨next, _, _, yielded, _, spared⟩ :=
      fitted.respond_spares silent keeps.key keeps.reset (fun _ => .inr boundary)
    have outcome := returned _ yielded
    simp only [answered, Outcome.mk.injEq, Handle.live.injEq] at outcome
    rw [outcome.1]
    exact spared.counter keeps.counter
  · cases request with
    | setKey key =>
      have ensured : Ensures (earlier.respond (.setKey key)) fun outcome =>
          ∀ next, outcome.handle = .live next →
            next.arena.read .counter = earlier.arena.read .counter := by
        rw [LiveHandle.respond_setKey]
        refine Ensures.bind (Ensures.always _ fun _ => trivial) fun keying _ => Ensures.pure ?_
        intro next live
        obtain rfl := Handle.live.inj live
        exact read_afterKeying earlier keying (by decide)
      exact returned _ ensured handle rfl
    | setCounter counter =>
      obtain ⟨cause, rfl⟩ := left.resolve_left fun other => by cases other.1
      obtain ⟨rfl, refused⟩ := fitted.eq_of_setCounter returned
      rw [afterCounter_refused refused.symm]
    | reset =>
      obtain ⟨cause, rfl⟩ := left.resolve_left fun other => other.2 rfl
      obtain ⟨rfl, refused⟩ := eq_of_reset returned
      rw [afterReset_refused refused.symm]
    | encrypt | decrypt | encryptInPlace | decryptInPlace => cases silent
    | _ => exact absurd ⟨rfl, rfl, by simp⟩ keeps

/-- In counter mode the counter is the one that the handle counts from. -/
theorem CountsFrom.read {handle : LiveHandle m} {start : Bytes} (counts : handle.CountsFrom start)
    (counting : handle.mode = .ctr) : handle.arena.read .counter = start := by
  induction counts with
  | opened given => rw [opened_zeros given, (Fitted.opened given).size_eq (by decide)]
  | @zeroed earlier handle request reachable asked returned =>
    have fitted := reachable.fitted
    have read := fitted.read_afterCounter
    obtain rfl | rfl | rfl := asked
    · obtain ⟨rfl, accepted⟩ := eq_of_reset returned
      have keyed : earlier.keyed = true := by
        by_contra unkeyed
        rw [afterReset, if_neg unkeyed] at accepted
        cases accepted
      rw [read_afterReset keyed, fitted.size_eq (by decide), (afterReset_sameShape earlier).width]
    · obtain ⟨rfl, _⟩ := fitted.eq_of_setCounter returned
      exact read none
    · obtain ⟨rfl, _⟩ := fitted.eq_of_setCounter returned
      rw [read, (afterCounter_steady earlier _).width, counterAfter_empty]
  | @given earlier handle block reachable filled returned =>
    obtain ⟨rfl, accepted⟩ := reachable.fitted.eq_of_setCounter returned
    rw [reachable.fitted.read_afterCounter, counterAfter_filled filled accepted.symm]
  | @kept earlier handle start request reply events counts silent left returned
      inductionHypothesis =>
    have shape := (LeftBy.of_returned returned rfl).shape
    have countingEarlier : earlier.mode = .ctr := shape.mode.symm.trans counting
    have boundary := counts.reachable.sound.boundary (by rw [countingEarlier]; decide)
    rw [counts.reachable.fitted.read_counter_of_kept boundary silent left returned]
    exact inductionHypothesis countingEarlier

/-- In counter mode every call goes through that has a key and room, whatever is asked in
between but keys, counters and resets, and the calls are masked with one sequence of
counters: the byte at a place is masked with its byte of the encryption of the counter that is
on from the first by the blocks which the calls before began and by the whole blocks before it
in its own call. In the end the counter is on by all blocks that were begun. The first counter
is the one that the handle counts from: zero after opening and after a reset, or the block that
it was given. So as long as the calls have not begun more blocks than there are counters, no
counter masks bytes of two blocks. -/
theorem counters_mask_calls {handle : LiveHandle m} (reachable : handle.Reachable)
    (counting : handle.mode = .ctr) (computes : handle.pin.algorithm.Computes functions)
    {requests : List Request} (keep : ∀ request ∈ requests, request.KeepsCounter) :
    let size := handle.blockLength
    let start := handle.arena.read .counter
    start.length = size ∧ (∀ given, handle.CountsFrom given → start = given) ∧
    ∃ last outcomes,
      Yields ((Handle.live handle).respondAll requests) (.live last, outcomes) ∧
      List.Forall₂ (Request.Served handle.keyed) requests outcomes ∧
      Exchange.AllMasked (padAt (functions.encrypt (handle.arena.read .live)) start)
        (exchanges requests outcomes) ∧
      last.arena.read .counter = onward start (Exchange.blocks size (exchanges requests outcomes)) ∧
      (Exchange.blocks size (exchanges requests outcomes) ≤ 256 ^ size →
        ∀ index place otherIndex otherPlace,
          Exchange.Covers (exchanges requests outcomes) index place →
          Exchange.Covers (exchanges requests outcomes) otherIndex otherPlace →
          onward start (Exchange.blockAt size ((exchanges requests outcomes).take index) place) =
            onward start
              (Exchange.blockAt size ((exchanges requests outcomes).take otherIndex) otherPlace) →
          index = otherIndex ∧ place / size = otherPlace / size) := by
  intro size start
  have fitted := reachable.fitted
  have sized : start.length = size := (Arena.length_read _ _).trans (fitted.size_eq (by decide))
  have boundary : handle.carry = 0 := reachable.sound.boundary (by rw [counting]; decide)
  have positive : 0 < size := fitted.positive (by rw [counting]; rfl)
  obtain ⟨last, outcomes, yielded, served, counted⟩ :=
    respondAll_counts fitted computes counting boundary keep
  have counter := counted.counter
  rw [show (handle.arena.read .counter).length = size from sized] at counter
  refine ⟨sized, fun given counts => counts.read counting, last, outcomes, yielded, served,
    counted.bytes, counter, ?_⟩
  intro room index place otherIndex otherPlace covers otherCovers same
  have few : Exchange.blocks size (exchanges requests outcomes) ≤ 256 ^ start.length := by
    rw [sized]
    exact room
  have sameBlock := eq_of_onward_eq few (covers.blockAt_lt_blocks positive)
    (otherCovers.blockAt_lt_blocks positive) same
  exact covers.eq_of_blockAt_eq otherCovers positive sameBlock

/-- The specimen in counter mode, one block before its counter comes round: twenty bytes, a
chaining value, one byte the other way, and an empty call. -/
theorem counters_mask_calls_specimen :
    let last : Bytes := List.replicate 16 0xFF
    let handle := (Specimen.keyed .ctr {}).after (.setCounter (some last))
    let requests : List Request :=
      [.encryptInPlace (Bytes.zeros 20), .setIv [1, 2, 3], .decrypt [4] [0, 0], .encrypt [] []]
    handle.CountsFrom last ∧ handle.arena.read .counter = last ∧
    ∃ next outcomes,
      Yields ((Handle.live handle).respondAll requests) (.live next, outcomes) ∧
      List.Forall₂ (Request.Served true) requests outcomes ∧
      Exchange.AllMasked (padAt Standin.Flip.complement last) (exchanges requests outcomes) ∧
      next.arena.read .counter =
        onward last (Exchange.blocks 16 (exchanges requests outcomes)) := by
  intro last handle requests
  have keyed : (Specimen.keyed .ctr {}).Reachable := Specimen.reachable_keyed .ctr {} rfl rfl
  have counts : handle.CountsFrom last :=
    .given keyed (by decide) (MayReturn.self ((Specimen.keyed .ctr {}).respond _))
  have keep : ∀ request ∈ requests, request.KeepsCounter := by decide
  obtain ⟨_, counted, next, outcomes, yielded, served, masked, ends, _⟩ :=
    counters_mask_calls counts.reachable rfl Specimen.computes keep
  have start := counted last counts
  rw [start] at masked ends
  exact ⟨counts, start, next, outcomes, yielded, served, masked, ends⟩

end LiveHandle

end CipherEngine
