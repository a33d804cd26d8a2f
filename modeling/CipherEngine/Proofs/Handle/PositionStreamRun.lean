import CipherEngine.Proofs.Chaining.PositionStream
import CipherEngine.Proofs.Handle.MaskedRun
import CipherEngine.Proofs.Handle.Representation

/-!
# The stream that counts over whole runs

A handle in stream mode has nothing but its context, and the cipher changes it with every
call. On the counting cipher the context is known all the same, from what has been asked of
the handle: an accepted key and a reset begin the keystream, a call that goes through uses up
as much of it as it has bytes, and everything else leaves it where it was.

`streamPlace` is this account of a history, for any requests whatever. `Streaming` is what
every one of them keeps, between the account and the handle.
-/
namespace CipherEngine

open Keystream Standin PositionStream

namespace Exchange

/-- All that went into the exchanges, in order. -/
def inputs (exchanges : List Exchange) : Bytes := (exchanges.map input).flatten

/-- All that came out of them, in order. -/
def outputs (exchanges : List Exchange) : Bytes := (exchanges.map output).flatten

/-- What is masked call by call is masked as one message. -/
theorem Consecutive.masks {pad : (position : Nat) → UInt8} {finished : List Exchange}
    (masked : Consecutive pad finished) : Masks pad (inputs finished) (outputs finished) := by
  induction finished generalizing pad with
  | nil => exact Masks.nil pad
  | cons exchange finished inductionHypothesis =>
    obtain ⟨here, behind⟩ := consecutive_cons masked
    have first : Masks pad exchange.input exchange.output :=
      ⟨here.length.symm, here.length.symm ▸ here.byte⟩
    rw [← here.length] at behind
    exact first.append (inductionHypothesis behind)

end Exchange

variable {m : Type → Type}

/-- A key was given, and the last one was accepted. -/
def KeyHeld (past : List (Request × Outcome m)) : Prop :=
  ∃ key outcome, lastKeying past = some (key, outcome) ∧ outcome.Accepted

/-- Where a stream stands: the first byte of its key, and the exchanges since it began. -/
structure StreamPlace where
  key : UInt8
  finished : List Exchange
deriving DecidableEq

/-- A key that is accepted and a reset that is done begin the stream. A call that goes through
is one more exchange. -/
def StreamPlace.next (place : Option StreamPlace) (request : Request) (outcome : Outcome m) :
    Option StreamPlace :=
  match request, outcome.reply with
  | .setKey (key :: _), .ok (.done (.ok ())) => some ⟨key, []⟩
  | .reset, .ok (.done (.ok ())) => place.map fun held => { held with finished := [] }
  | _, _ => place.map fun held =>
    { held with finished := held.finished ++ (request.exchange? outcome).toList }

/-- Where the stream stands after all this, if a key was ever accepted. -/
def streamPlace (past : List (Request × Outcome m)) : Option StreamPlace :=
  past.foldl (fun place entry => StreamPlace.next place entry.1 entry.2) none

/-- What is owed to a request after others: a call goes through exactly if there are a key and
room, a key is accepted exactly if it has a byte, and a reset is done exactly if there is a
key. -/
structure Request.Streamed (past : List (Request × Outcome m)) (request : Request)
    (outcome : Outcome m) : Prop where
  call : ∀ call, request.call? = some call →
    ((request.exchange? outcome).isSome = true ↔
      KeyHeld past ∧ call.input.length ≤ call.buffer.length)
  key : ∀ key, request.key? = some key → (outcome.Accepted ↔ key ≠ [])
  reset : request = .reset → (outcome.Accepted ↔ KeyHeld past)

/-- Every request got what it was owed, after those before it. -/
def AllStreamed (past : List (Request × Outcome m)) : Prop :=
  ∀ before request outcome, before ++ [(request, outcome)] <+: past →
    request.Streamed before outcome

section History

variable {past : List (Request × Outcome m)} {request : Request} {outcome : Outcome m}

/-- Where nothing happened, all is streamed. -/
theorem allStreamed_nil : AllStreamed ([] : List (Request × Outcome m)) := by
  intro before request outcome earlier
  exact absurd (List.prefix_nil.mp earlier) (by simp)

/-- One more request that got what it was owed. -/
theorem AllStreamed.concat (streamed : AllStreamed past) (last : request.Streamed past outcome) :
    AllStreamed (past ++ [(request, outcome)]) := by
  intro before other reply earlier
  obtain whole | inside := List.prefix_concat_iff.mp earlier
  · obtain ⟨rfl, ⟨⟩⟩ := List.append_inj' whole rfl
    exact last
  · exact streamed before other reply inside

/-- The place in the stream goes on with the last request. -/
theorem streamPlace_concat (past : List (Request × Outcome m)) (request : Request)
    (outcome : Outcome m) :
    streamPlace (past ++ [(request, outcome)]) =
      StreamPlace.next (streamPlace past) request outcome := by
  rw [streamPlace, List.foldl_append]
  rfl

/-- A request that gives no key and resets nothing adds its exchange, if it is one. -/
theorem StreamPlace.next_other (place : Option StreamPlace) (noKey : request.key? = none)
    (noReset : request ≠ .reset) :
    StreamPlace.next place request outcome = place.map fun held =>
      { held with finished := held.finished ++ (request.exchange? outcome).toList } := by
  cases request with
  | setKey key => cases noKey
  | reset => exact absurd rfl noReset
  | _ => rfl

/-- A refused key and a refused reset change nothing. -/
theorem StreamPlace.next_refused (place : Option StreamPlace) {handle : LiveHandle m}
    {cause : Refusal} {events : List Event} (silent : request.call? = none) :
    StreamPlace.next place request (handle.answered (.done (.error cause)) events) = place := by
  have idle : place.map (fun held => { held with
      finished := held.finished ++
        (request.exchange? (handle.answered (.done (.error cause)) events)).toList }) = place := by
    rw [Request.exchange?_of_call?_none silent]
    simp
  cases request with
  | setKey key => cases key <;> exact idle
  | _ => exact idle

/-- The last key is the same after any other request, and so is what came of it. -/
theorem keyHeld_other (noKey : request.key? = none) :
    KeyHeld (past ++ [(request, outcome)]) ↔ KeyHeld past := by
  rw [KeyHeld, lastKeying_other past noKey, KeyHeld]

/-- After a key, it is the last one. -/
theorem keyHeld_setKey (key : Bytes) :
    KeyHeld (past ++ [(.setKey key, outcome)]) ↔ outcome.Accepted := by
  rw [KeyHeld, lastKeying_setKey]
  constructor
  · rintro ⟨_, _, ⟨⟩, accepted⟩
    exact accepted
  · exact fun accepted => ⟨key, outcome, rfl, accepted⟩

end History

namespace LiveHandle

/-- A handle that was just opened on the stream that counts, with room for its context. -/
structure CountsPositions [Monad m] (opened : LiveHandle m) : Prop where
  given : ∃ registry id flags machine,
    (Handle.openOn registry id .stream flags machine).value = .ok (.live opened)
  counts : opened.primitive = PositionStream.primitive
  room : PositionStream.contextSize ≤ opened.pin.algorithm.contextSize.toNat

/-- The handle is at a place of the stream: the exchanges have used up the keystream from its
beginning on, the context goes on from there, and the template from the beginning. -/
structure StandsAt (handle : LiveHandle m) (place : StreamPlace) : Prop where
  masked : Exchange.Consecutive (padAt place.key) place.finished
  context : handle.arena.read .live =
    contextAt handle.pin.algorithm.contextSize.toNat place.key (Exchange.size place.finished)
  template : handle.arena.read .template =
    contextAt handle.pin.algorithm.contextSize.toNat place.key 0

/-- What a handle on the stream that counts is, after all that was asked of it since it was
opened. -/
structure Streaming (opened : LiveHandle m) (past : List (Request × Outcome m))
    (handle : LiveHandle m) : Prop extends SameShape opened handle where
  boundary : handle.carry = 0
  keyed : handle.keyed = true ↔ KeyHeld past
  begun : handle.keyed = true → (streamPlace past).isSome = true
  stands : ∀ place, streamPlace past = some place → handle.StandsAt place
  streamed : AllStreamed past

section

variable {opened handle : LiveHandle m} {past : List (Request × Outcome m)} {request : Request}
  {outcome : Outcome m} {place : StreamPlace}

/-- A call of the cipher goes on in the keystream from where the handle is. -/
theorem StandsAt.advance (stands : handle.StandsAt place) (fitted : handle.Fitted)
    (room : PositionStream.contextSize ≤ handle.pin.algorithm.contextSize.toNat)
    (direction : Direction) (input : Bytes) :
    let moved := PositionStream.advance (handle.arena.read .live) input
    StandsAt { handle with arena := handle.arena.put .live 0 moved.1 }
      { place with finished := place.finished ++ [⟨direction, input, moved.2⟩] } := by
  intro moved
  have ends : moved = (contextAt handle.pin.algorithm.contextSize.toNat place.key
      (Exchange.size place.finished + input.length),
      maskFrom place.key (Exchange.size place.finished % 2 ^ 64) input) := by
    rw [← advance_contextAt, ← stands.context]
  have sized := (Arena.length_read handle.arena .live).symm.trans fitted.length_context
  rw [ends]
  constructor
  · refine Exchange.AllMasked.concat stands.masked ⟨length_maskFrom _ _ input, ?_⟩
    intro spot inside
    rw [getD_maskFrom _ _ inside, padAt_eq]
  · rw [Exchange.size_concat]
    exact Arena.read_put_whole _ ((length_contextAt room _ _).trans sized.symm)
  · exact (Arena.read_put_of_ne _ _ _ (by decide)).trans stands.template

/-- A request that gives no key and resets nothing, and leaves the handle where its exchange
ends, if it is one. -/
theorem Streaming.goOn (streaming : Streaming opened past handle) (noKey : request.key? = none)
    (noReset : request ≠ .reset) (streamed : request.Streamed past outcome) {next : LiveHandle m}
    (shape : handle.SameShape next) (boundary : next.carry = 0)
    (keyed : next.keyed = handle.keyed)
    (stands : ∀ place, handle.StandsAt place → next.StandsAt
      { place with finished := place.finished ++ (request.exchange? outcome).toList }) :
    Streaming opened (past ++ [(request, outcome)]) next := by
  have account := streamPlace_concat past request outcome
  rw [StreamPlace.next_other _ noKey noReset] at account
  refine ⟨streaming.toSameShape.trans shape, boundary, ?_, ?_, ?_,
    streaming.streamed.concat streamed⟩
  · rw [keyed, keyHeld_other noKey]
    exact streaming.keyed
  · rw [keyed, account, Option.isSome_map]
    exact streaming.begun
  · intro later found
    rw [account] at found
    obtain ⟨earlier, held, rfl⟩ := Option.map_eq_some_iff.mp found
    exact stands earlier (streaming.stands earlier held)

/-- A request that begins the stream at a new place. -/
theorem Streaming.begins (streaming : Streaming opened past handle)
    (streamed : request.Streamed past outcome) {next : LiveHandle m}
    (shape : handle.SameShape next) (boundary : next.carry = 0) (keyed : next.keyed = true)
    (held : KeyHeld (past ++ [(request, outcome)]))
    (begun : streamPlace (past ++ [(request, outcome)]) = some place)
    (stands : next.StandsAt place) : Streaming opened (past ++ [(request, outcome)]) next := by
  refine ⟨streaming.toSameShape.trans shape, boundary, iff_of_true keyed held, ?_, ?_,
    streaming.streamed.concat streamed⟩
  · intro _
    rw [begun]
    rfl
  · intro other found
    obtain rfl := Option.some.inj (begun.symm.trans found)
    exact stands

/-- A key or a reset that is refused leaves the stream where it was, with a key or without. -/
theorem Streaming.refused (streaming : Streaming opened past handle)
    (silent : request.call? = none) {keyed : Bool} {cause : Refusal} {events : List Event} :
    let next : LiveHandle m := { handle with keyed }
    let outcome := next.answered (.done (.error cause)) events
    request.Streamed past outcome → (keyed = true ↔ KeyHeld (past ++ [(request, outcome)])) →
      (keyed = true → handle.keyed = true) →
        Streaming opened (past ++ [(request, outcome)]) next := by
  intro next outcome streamed held fewer
  have stays : streamPlace (past ++ [(request, outcome)]) = streamPlace past := by
    rw [streamPlace_concat, StreamPlace.next_refused _ silent]
  refine ⟨streaming.toSameShape.trans ⟨rfl, rfl, rfl⟩, streaming.boundary, held, ?_, ?_,
    streaming.streamed.concat streamed⟩
  · rw [stays]
    exact fun still => streaming.begun (fewer still)
  · intro place begun
    rw [stays] at begun
    obtain ⟨masked, context, template⟩ := streaming.stands place begun
    exact ⟨masked, context, template⟩

end

variable [Monad m] [LawfulMonad m] {opened handle : LiveHandle m}
  {past : List (Request × Outcome m)} {request : Request}

/-- In stream mode the transform is a call of the cipher under the context. -/
theorem transform_positions (streams : handle.mode = .stream)
    (counts : handle.primitive = PositionStream.primitive) (direction : Direction)
    (buffer : Bytes) :
    let moved := PositionStream.advance (handle.arena.read .live) buffer
    Gives (handle.transform direction buffer)
      ({ handle with arena := handle.arena.put .live 0 moved.1 }, moved.2) := by
  intro moved
  have transforms : handle.transform direction buffer =
      handle.transformStream direction buffer := by
    rw [transform, streams]
  rw [transforms, transformStream, counts]
  cases direction <;> exact Gives.bind (Gives.lift (Yields.pure moved)) (Gives.pure _)

/-- A key without bytes is refused, and the contexts stay. -/
theorem respond_setKey_nil (counts : handle.primitive = PositionStream.primitive) :
    ∃ cause events, handle.respond (.setKey []) =
      pure (LiveHandle.answered { handle with keyed := false } (.done (.error cause)) events) := by
  refine ⟨KeyRefusal.toRefusal (.invalidLength 1 0),
    [.keyRefused handle.pin.id (.invalidLength 1 0)], ?_⟩
  rw [respond_setKey, counts]
  simp only [PositionStream.primitive, PositionStream.setKey, pure_bind, afterKeying,
    Arena.put_read]

/-- A key that has a byte is accepted, and begins the stream. -/
theorem Fitted.respond_setKey_cons (fitted : handle.Fitted)
    (counts : handle.primitive = PositionStream.primitive)
    (room : PositionStream.contextSize ≤ handle.pin.algorithm.contextSize.toNat) (key : UInt8)
    (rest : Bytes) :
    ∃ next, handle.respond (.setKey (key :: rest)) = pure (next.answered (.done (.ok ())) []) ∧
      handle.SameShape next ∧ next.carry = handle.carry ∧ next.keyed = true ∧
      next.StandsAt ⟨key, []⟩ := by
  have sized := fitted.length_context
  let first := contextAt handle.pin.algorithm.contextSize.toNat key 0
  have taken : handle.primitive.setKey (handle.arena.read .live) (key :: rest) =
      pure ⟨.ok (), first⟩ := by
    rw [counts]
    simp only [PositionStream.primitive, setKey_cons (sized.symm ▸ room), sized, first]
  have live : (handle.arena.put .live 0 first).read .live = first := by
    apply Arena.read_put_whole
    rw [length_contextAt room, ← sized, Arena.length_read]
  refine ⟨{ handle with arena := (handle.arena.put .live 0 first).committed, keyed := true }, ?_,
    ⟨rfl, rfl, rfl⟩, rfl, rfl, Exchange.allMasked_nil, ?_, ?_⟩
  · rw [LiveHandle.respond_setKey, taken, pure_bind, afterKeying]
  · exact (Arena.read_committed_of_ne _ (by decide)).trans live
  · exact (Arena.read_committed_template _).trans live

/-- The request is answered, and leaves the handle as its history says. -/
def KeepsAccount (opened : LiveHandle m) (past : List (Request × Outcome m)) (request : Request)
    (outcome : Outcome m) : Prop :=
  outcome.Answered ∧ ∃ next, outcome.handle = .live next ∧
    Streaming opened (past ++ [(request, outcome)]) next

omit [LawfulMonad m] in
/-- A new handle has no key, and its stream has not begun. -/
theorem CountsPositions.streaming (positions : opened.CountsPositions) :
    Streaming opened [] opened := by
  obtain ⟨_, _, _, _, given⟩ := positions.given
  obtain ⟨_, _, _, rfl, _⟩ := Handle.openOn_gives given
  refine ⟨SameShape.refl _, rfl, ?_, ?_, ?_, allStreamed_nil⟩
  · refine ⟨fun keyed => absurd keyed Bool.false_ne_true, ?_⟩
    rintro ⟨_, _, last, _⟩
    cases last
  · exact fun keyed => absurd keyed Bool.false_ne_true
  · intro place begun
    cases begun

omit [LawfulMonad m] in
/-- What opening has judged still holds. -/
theorem Streaming.fitted (streaming : Streaming opened past handle)
    (positions : opened.CountsPositions) :
    handle.Fitted ∧ handle.mode = .stream ∧ handle.primitive = PositionStream.primitive ∧
      PositionStream.contextSize ≤ handle.pin.algorithm.contextSize.toNat := by
  obtain ⟨⟨_, _, _, _, given⟩, counts, room⟩ := positions
  have streams : opened.mode = .stream := by
    obtain ⟨_, _, _, rfl, _⟩ := Handle.openOn_gives given
    rfl
  refine ⟨(Fitted.opened given).of_sameShape streaming.toSameShape,
    streaming.mode.trans streams, ?_, ?_⟩
  · rw [primitive, streaming.pin]
    exact counts
  · rw [streaming.pin]
    exact room

/-- A call goes through if there are a key and room, and goes on in the keystream. -/
theorem Streaming.call (streaming : Streaming opened past handle)
    (positions : opened.CountsPositions) {call : MessageCall}
    (asked : request.call? = some call) :
    Ensures (handle.respond request) (KeepsAccount opened past request) := by
  obtain ⟨fitted, streams, counts, room⟩ := streaming.fitted positions
  have free : handle.mode ≠ .cbc ∧ handle.mode ≠ .ecb := by
    rw [streams]
    decide
  have noKey : request.key? = none := by
    cases request <;> cases asked <;> rfl
  have noReset : request ≠ .reset := by
    rintro rfl
    cases asked
  obtain ⟨next, reply, events, yielded, served, ends⟩ :=
    respond_transforms free asked (length_maskFrom _ _ call.input)
      (transform_positions streams counts call.direction call.input)
  have streamed : request.Streamed past (next.answered reply events) := by
    refine ⟨fun other again => ?_, fun key given => ?_, fun same => absurd same noReset⟩
    · rw [served.call other again, streaming.keyed]
    · rw [noKey] at given
      cases given
  refine yielded.mono fun outcome same => ?_
  subst same
  refine ⟨⟨reply, rfl⟩, next, rfl, ?_⟩
  obtain ⟨rfl, exchanged⟩ | ⟨rfl, silent⟩ := ends
  · refine streaming.goOn noKey noReset streamed ⟨rfl, rfl, rfl⟩ streaming.boundary rfl ?_
    intro place stands
    rw [exchanged, Option.toList_some]
    exact stands.advance fitted room call.direction call.input
  · refine streaming.goOn noKey noReset streamed (SameShape.refl _) streaming.boundary rfl ?_
    intro place stands
    rw [silent, Option.toList_none, List.append_nil]
    exact stands

/-- What makes no call, gives no key and resets nothing, leaves the stream where it was. -/
theorem Streaming.spared (streaming : Streaming opened past handle)
    (positions : opened.CountsPositions) (silent : request.call? = none)
    (noKey : request.key? = none) (noReset : request ≠ .reset) :
    Ensures (handle.respond request) (KeepsAccount opened past request) := by
  obtain ⟨_, reply, events, yielded, _, spared⟩ :=
    (streaming.fitted positions).1.respond_spares silent noKey noReset
      fun _ => .inr streaming.boundary
  have spares : Ensures (handle.respond request) fun outcome =>
      outcome.Answered ∧ ∃ next, outcome.handle = .live next ∧ request.Spares handle next :=
    yielded.mono fun outcome same => by
      subst same
      exact ⟨⟨reply, rfl⟩, _, rfl, spared⟩
  have unchanged : handle.LeftBy request handle :=
    ⟨SameShape.refl handle, id, fun _ => SameKey.refl handle, fun _ _ => .inl rfl⟩
  have both := spares.and (respond_keeps handle request) (handle.answered (.truth true) [])
    ⟨⟨⟨_, rfl⟩, handle, rfl, spares_refl request handle⟩, handle, rfl, unchanged⟩
  refine both.mono fun outcome ⟨⟨answered, next, live, spared⟩, other, left, leaves⟩ => ?_
  obtain rfl : next = other := Handle.live.inj (live.symm.trans left)
  have template := (leaves.key fun key same => by rw [same] at noKey; cases noKey).template
  have streamed : request.Streamed past outcome := by
    refine ⟨fun call asked => ?_, fun key given => ?_, fun same => absurd same noReset⟩
    · rw [silent] at asked
      cases asked
    · rw [noKey] at given
      cases given
  refine ⟨answered, next, live, streaming.goOn noKey noReset streamed spared.toSameShape
    ((spared.carry (.inr streaming.boundary)).trans streaming.boundary) spared.keyed ?_⟩
  intro place stands
  rw [Request.exchange?_of_call?_none silent, Option.toList_none, List.append_nil]
  refine ⟨stands.masked, ?_, ?_⟩
  · rw [spared.live, spared.pin]
    exact stands.context
  · rw [template, spared.pin]
    exact stands.template

/-- A key is accepted if it has a byte, and then the stream begins with it. -/
theorem Streaming.setKey (streaming : Streaming opened past handle)
    (positions : opened.CountsPositions) (key : Bytes) :
    Ensures (handle.respond (.setKey key)) (KeepsAccount opened past (.setKey key)) := by
  obtain ⟨fitted, _, counts, room⟩ := streaming.fitted positions
  have owed {outcome : Outcome m} (decided : outcome.Accepted ↔ key ≠ []) :
      (Request.setKey key).Streamed past outcome := by
    refine ⟨fun call asked => ?_, fun other given => ?_, fun same => ?_⟩
    · cases asked
    · cases given
      exact decided
    · cases same
  cases key with
  | nil =>
    obtain ⟨cause, events, answer⟩ := respond_setKey_nil counts
    rw [answer]
    refine Ensures.pure ⟨⟨_, rfl⟩, _, rfl, streaming.refused rfl (owed ?_) ?_ ?_⟩
    · exact iff_of_false (fun accepted => by cases accepted) fun filled => filled rfl
    · rw [keyHeld_setKey]
      exact iff_of_false Bool.false_ne_true fun accepted => by cases accepted
    · exact fun keyed => absurd keyed Bool.false_ne_true
  | cons first rest =>
    obtain ⟨next, answer, shape, carry, keyed, stands⟩ :=
      fitted.respond_setKey_cons counts room first rest
    rw [answer]
    refine Ensures.pure ⟨⟨_, rfl⟩, next, rfl, streaming.begins (owed ?_) shape
      (carry.trans streaming.boundary) keyed ((keyHeld_setKey _).mpr rfl) ?_ stands⟩
    · exact iff_of_true rfl (List.cons_ne_nil _ _)
    · rw [streamPlace_concat]
      rfl

/-- A reset is done if there is a key, and then the stream begins anew with it. -/
theorem Streaming.reset (streaming : Streaming opened past handle) :
    Ensures (handle.respond .reset) (KeepsAccount opened past .reset) := by
  have owed {outcome : Outcome m} (decided : outcome.Accepted ↔ handle.keyed = true) :
      Request.reset.Streamed past outcome := by
    refine ⟨fun call asked => ?_, fun key given => ?_, fun _ => decided.trans streaming.keyed⟩
    · cases asked
    · cases given
  rw [respond_reset]
  by_cases keyed : handle.keyed = true
  · obtain ⟨done, stillKeyed, boundary, _⟩ := reset_keyed keyed
    obtain ⟨place, begun⟩ := Option.isSome_iff_exists.mp (streaming.begun keyed)
    have template := (streaming.stands place begun).template
    have shape := afterReset_sameShape handle
    have stands : handle.afterReset.1.StandsAt { place with finished := [] } := by
      refine ⟨Exchange.allMasked_nil, ?_, ?_⟩
      · rw [read_afterReset keyed, shape.pin]
        exact template
      · rw [read_afterReset keyed, shape.pin]
        exact template
    rw [done]
    refine Ensures.pure ⟨⟨_, rfl⟩, handle.afterReset.1, rfl,
      streaming.begins (owed ?_) shape boundary
      stillKeyed ((keyHeld_other rfl).mpr (streaming.keyed.mp keyed)) ?_ stands⟩
    · exact iff_of_true rfl keyed
    · rw [streamPlace_concat, begun]
      rfl
  · have refused : handle.afterReset = (handle, .error (.configuration .noKey)) := by
      rw [LiveHandle.afterReset, if_neg keyed]
    rw [refused]
    refine Ensures.pure ⟨⟨_, rfl⟩, handle, rfl, streaming.refused rfl (owed ?_) ?_ id⟩
    · exact iff_of_false (fun accepted => by cases accepted) keyed
    · rw [keyHeld_other rfl]
      exact streaming.keyed

/-- Every request is answered, and leaves the handle as its history says. -/
theorem Streaming.step (streaming : Streaming opened past handle)
    (positions : opened.CountsPositions) (request : Request) :
    Ensures (handle.respond request) (KeepsAccount opened past request) := by
  cases asked : request.call? with
  | some call => exact streaming.call positions asked
  | none =>
    cases request with
    | setKey key => exact streaming.setKey positions key
    | reset => exact streaming.reset
    | encrypt | decrypt | encryptInPlace | decryptInPlace => cases asked
    | _ => exact streaming.spared positions asked rfl (by simp)

/-- Whatever is asked of a handle since it was opened, it is as its history says. -/
theorem CountsPositions.respondAll_streams (positions : opened.CountsPositions)
    (requests : List Request) :
    Ensures ((Handle.live opened).respondAll requests) fun result =>
      result.2.length = requests.length ∧ ∃ handle, result.1 = .live handle ∧
        Streaming opened (requests.zip result.2) handle := by
  have run := Handle.respondAll_keeps (Streaming opened) requests
    (fun request _ _ _ streaming => streaming.step positions request) positions.streaming
  exact run.mono fun result ⟨lengths, _, handle, live, streaming⟩ =>
    ⟨lengths, handle, live, streaming⟩

/-- On a handle that streams with the counting cipher, whatever is asked of it since it was
opened, every call goes through that has a key and room, and the calls since the last key that
was accepted or the last reset that was done, in either direction, are masked with one
keystream: the byte at a position, counted over all of them, with the first byte of the key and
the position modulo 256. The context then holds that byte and the count of all bytes, modulo
2⁶⁴, least significant digit first.

So how a message is cut into calls does not matter: another such handle whose key begins with
the same byte gives the same bytes for the same message, and gives the message back for what it
was masked to, whatever the calls and the directions in which either has asked for them. -/
theorem positions_mask_calls (positions : opened.CountsPositions) (requests : List Request) :
    Ensures ((Handle.live opened).respondAll requests) fun result =>
      let past := requests.zip result.2
      result.2.length = requests.length ∧ AllStreamed past ∧
      ∃ handle, result.1 = .live handle ∧ (handle.keyed = true ↔ KeyHeld past) ∧
        (KeyHeld past → (streamPlace past).isSome = true) ∧
        ∀ place, streamPlace past = some place →
          let finished := place.finished
          let input := Exchange.inputs finished
          let output := Exchange.outputs finished
          Exchange.Consecutive (padAt place.key) finished ∧
          Masks (padAt place.key) input output ∧
          handle.arena.read .live =
            contextAt opened.pin.algorithm.contextSize.toNat place.key (Exchange.size finished) ∧
          ∀ other : LiveHandle m, other.CountsPositions → ∀ again,
            Ensures ((Handle.live other).respondAll again) fun later =>
              ∀ twin, streamPlace (again.zip later.2) = some twin → twin.key = place.key →
                (Exchange.inputs twin.finished = input →
                  Exchange.outputs twin.finished = output) ∧
                (Exchange.inputs twin.finished = output →
                  Exchange.outputs twin.finished = input) := by
  refine (positions.respondAll_streams requests).mono fun result ⟨lengths, handle, live, ends⟩ => ?_
  intro past
  refine ⟨lengths, ends.streamed, handle, live, ends.keyed,
    fun held => ends.begun (ends.keyed.mpr held), ?_⟩
  intro place begun finished input output
  obtain ⟨consecutive, context, _⟩ := ends.stands place begun
  rw [ends.pin] at context
  have masks : Masks (padAt place.key) input output := consecutive.masks
  refine ⟨consecutive, masks, context, fun other again requestsAgain => ?_⟩
  refine (again.respondAll_streams requestsAgain).mono fun later ⟨_, last, _, endsAgain⟩ => ?_
  intro twin begunAgain sameKey
  have masksAgain := (endsAgain.stands twin begunAgain).masked.masks
  rw [sameKey] at masksAgain
  constructor
  · intro sameInput
    rw [sameInput] at masksAgain
    exact masksAgain.unique masks
  · intro fedBack
    rw [fedBack] at masksAgain
    exact masksAgain.unique masks.symm

/-- The streaming specimen: a refused key, a key, three bytes, a chaining value that nothing
needs, two bytes the other way with room for three, and a call without room. -/
theorem positions_mask_calls_specimen :
    let opened := Specimen.streamed {}
    let requests : List Request := [.setKey [], .setKey [7, 1], .encryptInPlace [0, 0, 0],
      .setIv [9], .decrypt [1, 2] [0, 0, 0], .encrypt [1, 2] [0]]
    let result := Id.run ((Handle.live opened).respondAll requests)
    let place : StreamPlace := ⟨7, [⟨.encrypt, [0, 0, 0], [7, 6, 5]⟩, ⟨.decrypt, [1, 2], [5, 1]⟩]⟩
    opened.CountsPositions ∧ streamPlace (requests.zip result.2) = some place ∧
    ∃ handle, result.1 = .live handle ∧ handle.arena.read .live = [7, 5, 0, 0, 0, 0, 0, 0, 0] := by
  intro opened requests result place
  have positions : opened.CountsPositions :=
    ⟨⟨_, _, _, _, Specimen.openOn_alone rfl rfl⟩, rfl, by decide⟩
  have begun : streamPlace (requests.zip result.2) = some place := by decide +kernel
  obtain ⟨_, _, handle, live, _, _, runs⟩ :=
    Ensures.of_run (positions_mask_calls positions requests)
  obtain ⟨_, _, context, _⟩ := runs place begun
  exact ⟨positions, begun, handle, live, context.trans (by decide +kernel)⟩

end LiveHandle

end CipherEngine
