import CipherEngine.Proofs.Handle.CarriedKeystream
import CipherEngine.Proofs.Handle.Delivery
import CipherEngine.Proofs.Handle.OutputFeedbackRun
import Mathlib.Data.List.ReduceOption

/-!
# Realignment outside cipher feedback

A realignment is made for cipher feedback, but it does not ask for the mode: it acts on every
handle that allows it and carries something. Everywhere else it is idle, and may be put in
between any requests without a trace. Only output feedback is left, which carries keystream
too. There a realignment inside a block gives up the keystream of the message, and the calls
that follow are masked with another one, which begins with the encryption of a block that is
put together from the two chaining values.

A plan says where realignments are put in: it is the list of the requests, with an empty place
for each of them.
-/
namespace CipherEngine

open Keystream

/-- The requests of a plan, with a realignment at every empty place. -/
def Request.realigned (plan : List (Option Request)) : List Request :=
  plan.map fun asked => asked.getD .syncFeedback

/-- The outcomes of the requests of a plan, among those of the run with realignments. -/
def Outcome.kept {m : Type → Type} :
    (plan : List (Option Request)) → List (Outcome m) → List (Outcome m)
  | none :: plan, _ :: rest => kept plan rest
  | some _ :: plan, outcome :: rest => outcome :: kept plan rest
  | _, _ => []

namespace Exchange

variable {pad other : (position : Nat) → UInt8}

/-- The same input is masked to the same output exactly if the keystreams agree on it. -/
theorem MaskedWith.output_eq_iff {exchange twin : Exchange} (same : exchange.input = twin.input)
    (masked : exchange.MaskedWith pad) (otherwise : twin.MaskedWith other) :
    exchange.output = twin.output ↔ ∀ place < exchange.input.length, pad place = other place := by
  have widths : exchange.output.length = twin.output.length := by
    rw [masked.length, otherwise.length, same]
  have byte (place : Nat) (inside : place < exchange.input.length) :
      exchange.output.getD place 0 = twin.output.getD place 0 ↔ pad place = other place := by
    rw [masked.byte place inside, otherwise.byte place (same ▸ inside), same, UInt8.xor_right_inj]
  constructor
  · intro equal place inside
    exact (byte place inside).mp (congrArg (fun output : Bytes => output.getD place 0) equal)
  · intro agree
    refine List.ext_getElem widths fun place inside within => ?_
    have here : place < exchange.input.length := masked.length ▸ inside
    have equal := (byte place here).mpr (agree place here)
    rwa [List.getD_eq_getElem _ _ inside, List.getD_eq_getElem _ _ within] at equal

/-- So exchanges of the same inputs have the same outputs exactly if the keystreams agree as far as
the inputs reach. -/
theorem outputs_eq_iff {first second : List Exchange}
    (same : first.map input = second.map input) (masked : Consecutive pad first)
    (otherwise : Consecutive other second) :
    first.map output = second.map output ↔
      ∀ position < size first, pad position = other position := by
  -- Behind the first input, the rest is masked with what the keystreams hold from there on.
  induction first generalizing second pad other with
  | nil =>
    obtain rfl : second = [] := List.map_eq_nil_iff.mp same.symm
    exact iff_of_true rfl fun position inside => absurd inside (Nat.not_lt_zero position)
  | cons exchange first inductionHypothesis =>
    cases second with
    | nil => cases same
    | cons twin second =>
      obtain ⟨input, inputs⟩ := List.cons.inj same
      obtain ⟨here, behind⟩ := consecutive_cons masked
      obtain ⟨there, after⟩ := consecutive_cons otherwise
      rw [← input] at after
      have total : size (exchange :: first) = exchange.input.length + size first := by simp [size]
      rw [List.map_cons, List.map_cons, List.cons.injEq, here.output_eq_iff input there,
        inductionHypothesis inputs behind after, total]
      constructor
      · rintro ⟨front, rest⟩ position inside
        by_cases early : position < exchange.input.length
        · exact front position early
        · obtain ⟨place, rfl⟩ := Nat.exists_eq_add_of_le (Nat.not_lt.mp early)
          exact rest place (by omega)
      · intro agree
        exact ⟨fun place inside => agree place (by omega),
          fun position inside => agree _ (by omega)⟩

end Exchange

/-- What a chain keeps of the keystream when a run begins at some place in it: the exchanges are
masked with it from there on, and the chain is where they have ended. -/
structure OutputFeedback.Continued (encipher : Bytes → Bytes) (iv : Bytes) (start : Nat)
    (chain : Chain) (finished : List Exchange) : Prop where
  bytes : Exchange.Consecutive (fun position => OutputFeedback.padAt encipher iv (start + position))
    finished
  place : OutputFeedback.At encipher iv (start + Exchange.size finished) chain

/-- The machine goes on in the keystream, wherever the run has begun. -/
theorem OutputFeedback.keeps_continued {encipher : Bytes → Bytes} {iv : Bytes} {size : Nat}
    (sized : iv.length = size)
    (width : ∀ block : Bytes, block.length = size → (encipher block).length = size) (start : Nat) :
    Mode.ofb.Keeps encipher size (Continued encipher iv start) := by
  constructor
  · intro chain finished direction feedback carries fits continued input passed
    cases carries
    obtain ⟨bytes, ends⟩ := continued.place.pass sized width fits input
    constructor
    · refine continued.bytes.concat ⟨Keystream.length_pass _ _ _ _, fun place inside => ?_⟩
      rw [bytes place inside, Nat.add_assoc]
    · rw [Exchange.size_concat, ← Nat.add_assoc]
      exact ends
  · intro chain other finished alike continued
    exact ⟨continued.bytes, continued.place.congr alike⟩

/-- The input of an exchange is that of its call. -/
theorem Request.exchange?_input {m : Type → Type} {request : Request} {call : MessageCall}
    (asked : request.call? = some call) (outcome : Outcome m) :
    (request.exchange? outcome).map Exchange.input =
      if (request.exchange? outcome).isSome then some call.input else none := by
  cases passed : request.exchange? outcome with
  | none => rfl
  | some exchange =>
    rw [Option.map_some, (Request.eq_of_exchange? asked passed).2]
    rfl

/-- What requests put into their exchanges does not depend on the outcomes, if they are served. -/
theorem Request.Served.inputs_eq {m : Type → Type} {keyed : Bool} {requests : List Request}
    {outcomes others : List (Outcome m)}
    (served : List.Forall₂ (Request.Served keyed) requests outcomes)
    (otherwise : List.Forall₂ (Request.Served keyed) requests others) :
    (exchanges requests outcomes).map Exchange.input =
      (exchanges requests others).map Exchange.input := by
  induction served generalizing others with
  | nil =>
    cases otherwise
    rfl
  | @cons request outcome _ _ first _ inductionHypothesis =>
    cases otherwise with
    | @cons _ other _ _ second rest =>
      have alike : (request.exchange? outcome).map Exchange.input =
          (request.exchange? other).map Exchange.input := by
        cases asked : request.call? with
        | none => rw [exchange?_of_call?_none asked, exchange?_of_call?_none asked]
        | some call =>
          have same := (first.call call asked).trans (second.call call asked).symm
          rw [exchange?_input asked, exchange?_input asked]
          simp only [same]
      rw [exchanges_cons, exchanges_cons, List.map_append, List.map_append, ← Option.toList_map,
        ← Option.toList_map, alike, inductionHypothesis rest]

namespace LiveHandle

variable {m : Type → Type}

/-- A realignment finds nothing to do: the handle does not allow it, or carries nothing. -/
def Idle (handle : LiveHandle m) : Prop := handle.flags.syncEnabled = false ∨ handle.carry = 0

variable [Monad m]

/-- At every empty place of the plan, whatever handle may be there finds nothing to do. -/
def Spared : (plan : List (Option Request)) → LiveHandle m → Prop
  | [], _ => True
  | none :: plan, handle => handle.Idle ∧ Spared plan handle
  | some request :: plan, handle =>
    Ensures (handle.respond request) fun outcome =>
      ∃ next, outcome.handle = .live next ∧ Spared plan next

/-- The realignments of a plan change nothing in its run: the same handle is left, with the same
outcomes of all requests of the plan and the same effects. -/
def Untraced (handle : LiveHandle m) (plan : List (Option Request)) : Prop :=
  (fun run => (run.1, Outcome.kept plan run.2)) <$>
      (Handle.live handle).respondAll (Request.realigned plan) =
    (Handle.live handle).respondAll plan.reduceOption

variable [LawfulMonad m]

/-- Then the handle is answered to and left as it is. -/
theorem Idle.respond {handle : LiveHandle m} (idle : handle.Idle) :
    handle.respond .syncFeedback = pure (handle.answered (.done (.ok ())) []) := by
  rw [respond_syncFeedback, syncFeedback_idle idle, ExceptT.run_pure, pure_bind, realigned]

/-- Realignments that find nothing to do leave no trace in a run: the same handle is left, with
the same outcomes of all other requests and the same effects. -/
theorem Spared.untraced {plan : List (Option Request)} {handle : LiveHandle m}
    (spared : handle.Spared plan) : handle.Untraced plan := by
  unfold Untraced
  induction plan generalizing handle with
  | nil => exact map_pure _ _
  | cons asked plan inductionHypothesis =>
    cases asked with
    | none =>
      obtain ⟨idle, later⟩ := spared
      rw [List.reduceOption_cons_of_none, ← inductionHypothesis later]
      simp only [Request.realigned, List.map_cons, Option.getD_none, Handle.respondAll,
        Handle.respond, idle.respond, pure_bind, answered, bind_pure_comp, Functor.map_map,
        Outcome.kept]
    | some request =>
      rw [List.reduceOption_cons_of_some]
      simp only [Request.realigned, List.map_cons, Option.getD_some, Handle.respondAll,
        Handle.respond, map_bind]
      -- The request keeps its effects on both sides, and only what it may leave matters.
      refine spared.bind_eq fun outcome => ?_
      rintro ⟨next, left, later⟩
      rw [left, ← inductionHypothesis later]
      cases outcome.reply with
      | error cause => simp only [map_pure, Outcome.kept]
      | ok reply => simp only [bind_pure_comp, Functor.map_map, Outcome.kept, Request.realigned]

/-- What every request keeps and what leaves a realignment nothing to do, spares any plan. -/
theorem Spared.of_kept {Kept : LiveHandle m → Prop} (idle : ∀ handle, Kept handle → handle.Idle)
    (step : ∀ handle, Kept handle → ∀ request, Ensures (handle.respond request) fun outcome =>
      ∃ next, outcome.handle = .live next ∧ Kept next)
    (plan : List (Option Request)) {handle : LiveHandle m} (kept : Kept handle) :
    handle.Spared plan := by
  induction plan generalizing handle with
  | nil => trivial
  | cons asked plan inductionHypothesis =>
    cases asked with
    | none => exact ⟨idle handle kept, inductionHypothesis kept⟩
    | some request =>
      refine (step handle kept request).mono fun outcome => ?_
      rintro ⟨next, left, still⟩
      exact ⟨next, left, inductionHypothesis still⟩

/-- A handle that does not allow to be realigned never will. -/
theorem respond_keeps_still {handle : LiveHandle m} (still : handle.flags.syncEnabled = false)
    (request : Request) :
    Ensures (handle.respond request) fun outcome =>
      ∃ next, outcome.handle = .live next ∧ next.flags.syncEnabled = false := by
  cases asked : request.call? with
  | some call =>
    rw [respond_call handle asked]
    refine Ensures.map (perform_steady handle call) fun result steady => ?_
    match result with
    | .ok (after, output) =>
      exact ⟨after, rfl, (congrArg Flags.syncEnabled (steady _ rfl).flags).trans still⟩
    | .error (.refused _) | .error (.late _ _) | .error (.fault _) => exact ⟨handle, rfl, still⟩
  | none =>
    have stays : Guards (handle.syncFeedback : Checked m (LiveHandle m)) (· = handle) := by
      rw [syncFeedback_idle (.inl still)]
      exact Guards.pure rfl
    refine (handle.respond_endsIn asked stays).mono fun outcome ends => ?_
    cases ends with
    | keyed key keying =>
      refine ⟨_, rfl, Eq.trans ?_ still⟩
      rw [afterKeying]
      cases keying.verdict <;> rfl
    | valued iv => exact ⟨_, rfl, still⟩
    | counted counter =>
      exact ⟨_, rfl, (congrArg Flags.syncEnabled (afterCounter_steady handle counter).flags).trans
        still⟩
    | aligned same => exact ⟨_, rfl, same ▸ still⟩
    | stealing enable =>
      refine ⟨_, rfl, Eq.trans ?_ still⟩
      rw [setStealing]
      split <;> rfl
    | tagging enable =>
      refine ⟨_, rfl, Eq.trans ?_ still⟩
      rw [setMac]
      split <;> rfl
    | restored =>
      refine ⟨_, rfl, Eq.trans ?_ still⟩
      rw [afterReset]
      split <;> rfl
    | shown | faulted => exact ⟨handle, rfl, still⟩

/-- Outside cipher feedback, and in output feedback on a handle that does not allow to be
realigned, realignments find nothing to do wherever they are put in. -/
theorem Reachable.spared {handle : LiveHandle m} (reachable : handle.Reachable)
    (other : handle.mode ≠ .cfb) (still : handle.mode = .ofb → handle.flags.syncEnabled = false)
    (plan : List (Option Request)) : handle.Spared plan := by
  by_cases feedback : handle.mode = .ofb
  · exact Spared.of_kept (fun _ disabled => .inl disabled)
      (fun _ disabled request => respond_keeps_still disabled request) plan (still feedback)
  · have step (handle : LiveHandle m) (kept : handle.Sound ∧ handle.mode.Rests)
        (request : Request) :
        Ensures (handle.respond request) fun outcome =>
          ∃ next, outcome.handle = .live next ∧ next.Sound ∧ next.mode.Rests := by
      refine (respond_keeps handle request).mono fun outcome => ?_
      rintro ⟨next, left, keeps⟩
      exact ⟨next, left, keeps.sound kept.1, keeps.shape.mode.symm ▸ kept.2⟩
    exact Spared.of_kept (fun _ kept => .inr (kept.1.boundary kept.2)) step plan
      ⟨reachable.sound, other, feedback⟩

/-- The block that a realignment makes the chaining value of: the end of the previous chaining
value, and behind it the part of the current one that is used up. -/
def realignedIv (handle : LiveHandle m) : Bytes :=
  let used := handle.blockLength - handle.carry
  (handle.arena.read .previous).drop used ++ (handle.arena.read .iv).take used

/-- A handle that allows it and carries something is realigned, whatever its mode. -/
theorem Fitted.realigns {handle : LiveHandle m} (fitted : handle.Fitted)
    (small : handle.carry < handle.blockLength) (enabled : handle.flags.syncEnabled = true)
    (carried : handle.carry ≠ 0) :
    ∃ synced, Yields (handle.respond .syncFeedback) (synced.answered (.done (.ok ())) []) ∧
      handle.SameShape synced ∧ synced.keyed = handle.keyed ∧ synced.carry = 0 ∧
      synced.arena.read .iv = handle.realignedIv ∧
      synced.arena.read .live = handle.arena.read .live := by
  have fits := fitted.chain_fits small
  obtain ⟨width, given⟩ := CipherFeedback.realign_gives (m := m) fits carried
  have block : handle.chain.blockLength = handle.blockLength := fits.iv
  rw [block] at width given
  let after : Chain := { handle.chain with iv := handle.realignedIv, carry := 0 }
  have afterFits : after.Fits handle.blockLength :=
    ⟨width, fits.previous, fits.counter, fits.scratch, Nat.lt_of_le_of_lt (Nat.zero_le _) small⟩
  have realigned : Gives (handle.syncFeedback : Checked m (LiveHandle m))
      (handle.withChain after) := by
    rw [syncFeedback, if_pos (by simp [enabled, carried])]
    exact Gives.bind given (Gives.pure _)
  exact ⟨handle.withChain after, respond_syncFeedback_gives realigned,
    withChain_sameShape handle after, rfl, rfl,
    congrArg Chain.iv (fitted.chain_withChain afterFits), read_withChain handle after (.inl rfl)⟩

variable {functions : BlockFunctions}

/-- In output feedback, a run that leaves the keystream alone goes on in it from where the handle
is: the bytes that it carries are the next ones. -/
theorem Fitted.respondAll_continues {handle : LiveHandle m} (fitted : handle.Fitted)
    (computes : handle.pin.algorithm.Computes functions) (feedback : handle.mode = .ofb)
    (small : handle.carry < handle.blockLength) {requests : List Request}
    (allowed : ∀ request ∈ requests, request.KeepsKeystream ∧ request ≠ .syncFeedback) :
    ∃ last outcomes, Yields ((Handle.live handle).respondAll requests) (.live last, outcomes) ∧
      List.Forall₂ (Request.Served handle.keyed) requests outcomes ∧
      Exchange.Consecutive
        (fun position => OutputFeedback.padAt (functions.encrypt (handle.arena.read .live))
          (handle.arena.read .iv) (handle.blockLength - handle.carry + position))
        (exchanges requests outcomes) := by
  have sized : handle.chain.iv.length = handle.blockLength := (fitted.chain_fits small).iv
  have width := fitted.length_encrypt (Mode.chainsBlocks_of_feeds (.inr feedback)) computes
  have keeps := OutputFeedback.keeps_continued sized width (handle.blockLength - handle.carry)
  rw [← feedback] at keeps
  have begins : OutputFeedback.Continued (functions.encrypt (handle.arena.read .live))
      handle.chain.iv (handle.blockLength - handle.carry) handle.chain [] := by
    refine ⟨Exchange.allMasked_nil, ?_⟩
    rw [← sized]
    exact OutputFeedback.At.start _ (sized.symm ▸ Nat.le_of_lt small)
  obtain ⟨last, outcomes, yielded, served, continued⟩ :=
    respondAll_feeds fitted computes (.inr feedback) small keeps begins fun request member =>
      ⟨(allowed request member).1, fun sync => absurd sync (allowed request member).2⟩
  exact ⟨last, outcomes, yielded, served, continued.bytes⟩

/-- Outside cipher feedback, realignments change nothing wherever they find nothing to do, and so
nothing at all but in output feedback on a handle that allows them and carries something. There a
realignment puts a new chaining value together and gives up what is carried. The calls that follow
go through as they would have, but are masked with the keystream of the new chaining value in place
of the rest of the old one, and so come out the same exactly if the two agree as far as the calls
reach. -/
theorem realignments_end_carried_keystream {handle : LiveHandle m} (reachable : handle.Reachable)
    (other : handle.mode ≠ .cfb) :
    ((handle.mode = .ofb → handle.flags.syncEnabled = false) → ∀ plan, handle.Untraced plan) ∧
    (∀ plan, handle.Spared plan → handle.Untraced plan) ∧
    (handle.mode = .ofb → handle.flags.syncEnabled = true → handle.carry ≠ 0 →
      ∀ functions : BlockFunctions, handle.pin.algorithm.Computes functions →
        let encipher := functions.encrypt (handle.arena.read .live)
        let size := handle.blockLength
        let carried (position : Nat) :=
          OutputFeedback.padAt encipher (handle.arena.read .iv) (size - handle.carry + position)
        let renewed (position : Nat) :=
          OutputFeedback.padAt encipher handle.realignedIv (size + position)
        handle.carry < size ∧
        ∃ synced : LiveHandle m,
          Yields (handle.respond .syncFeedback) (synced.answered (.done (.ok ())) []) ∧
          synced.carry = 0 ∧ synced.arena.read .iv = handle.realignedIv ∧
          ∀ requests, (∀ request ∈ requests, request.KeepsKeystream ∧ request ≠ .syncFeedback) →
            ∃ last outcomes final others,
              Yields ((Handle.live handle).respondAll requests) (.live last, outcomes) ∧
              Yields ((Handle.live handle).respondAll (.syncFeedback :: requests))
                (.live final, synced.answered (.done (.ok ())) [] :: others) ∧
              List.Forall₂ (Request.Served handle.keyed) requests outcomes ∧
              List.Forall₂ (Request.Served handle.keyed) requests others ∧
              let plain := exchanges requests outcomes
              let realigned := exchanges requests others
              plain.map Exchange.input = realigned.map Exchange.input ∧
              Exchange.Consecutive carried plain ∧ Exchange.Consecutive renewed realigned ∧
              (plain.map Exchange.output = realigned.map Exchange.output ↔
                ∀ position < Exchange.size plain, carried position = renewed position)) := by
  refine ⟨fun still plan => (reachable.spared other still plan).untraced,
    fun plan spared => spared.untraced, fun feedback enabled inside functions computes => ?_⟩
  intro encipher size carried renewed
  have fitted := reachable.fitted
  have small : handle.carry < size := reachable.small computes (.inr feedback)
  obtain ⟨synced, answered, shape, keyed, boundary, value, live⟩ :=
    fitted.realigns small enabled inside
  have positive : synced.carry < synced.blockLength := by
    rw [boundary, shape.width]
    exact Nat.lt_of_le_of_lt (Nat.zero_le _) small
  have computesSynced : synced.pin.algorithm.Computes functions := by
    rw [shape.pin]
    exact computes
  refine ⟨small, synced, answered, boundary, value, fun requests allowed => ?_⟩
  obtain ⟨last, outcomes, yielded, served, goesOn⟩ :=
    fitted.respondAll_continues computes feedback small allowed
  obtain ⟨final, others, later, servedSynced, beginsAnew⟩ :=
    (fitted.of_sameShape shape).respondAll_continues computesSynced (shape.mode.trans feedback)
      positive allowed
  rw [live, value, shape.width, boundary, Nat.sub_zero] at beginsAnew
  rw [keyed] at servedSynced
  have inputs := Request.Served.inputs_eq served servedSynced
  exact ⟨last, outcomes, final, others, yielded, Handle.respondAll_cons answered later, served,
    servedSynced, inputs, goesOn, beginsAnew, Exchange.outputs_eq_iff inputs goesOn beginsAnew⟩

/-- The masking specimen in output feedback, which allows to be realigned, after one byte: the
realigned keystream is that of the byte behind zeros. -/
theorem realignments_end_carried_keystream_specimen :
    let handle := ([.setKey [1], .setIv [], .encryptInPlace [0]] : List Request).foldl
      LiveHandle.after (Specimen.masked .ofb { syncEnabled := true })
    let requests : List Request := [.encryptInPlace (Bytes.zeros 20), .mode, .decrypt [4] [0, 0]]
    handle.Reachable ∧ handle.carry = 15 ∧ handle.realignedIv = Bytes.zeros 15 ++ [1] ∧
    ∃ last outcomes final synced others,
      Yields ((Handle.live handle).respondAll requests) (.live last, outcomes) ∧
      Yields ((Handle.live handle).respondAll (.syncFeedback :: requests))
        (.live final, synced :: others) ∧
      Exchange.Consecutive
        (fun position => OutputFeedback.padAt (Specimen.maskFunctions.encrypt (Bytes.fit 16 [1]))
          (Bytes.zeros 15 ++ [1]) (16 + position))
        (exchanges requests others) := by
  intro handle requests
  have reachable : handle.Reachable := (Specimen.reachable_masked rfl rfl).afterAll _
  have shape : (Specimen.masked .ofb { syncEnabled := true }).SameShape handle :=
    sameShape_afterAll _ _
  have feedback : handle.mode = .ofb := shape.mode
  have carry : handle.carry = 15 := by decide +kernel
  have value : handle.realignedIv = Bytes.zeros 15 ++ [1] := by decide +kernel
  have width : handle.blockLength = 16 := by decide +kernel
  have context : handle.arena.read .live = Bytes.fit 16 [1] := by decide +kernel
  have enabled : handle.flags.syncEnabled = true := by decide +kernel
  have computes : handle.pin.algorithm.Computes Specimen.maskFunctions := by
    rw [shape.pin]
    exact Specimen.masking_computes
  have allowed : ∀ request ∈ requests, request.KeepsKeystream ∧ request ≠ .syncFeedback := by
    decide +kernel
  obtain ⟨_, synced, _, _, _, runs⟩ :=
    (realignments_end_carried_keystream reachable (by rw [feedback]; decide)).2.2 feedback enabled
      (by rw [carry]; decide) Specimen.maskFunctions computes
  obtain ⟨last, outcomes, final, others, yielded, later, _, _, _, _, renewed, _⟩ :=
    runs requests allowed
  rw [context, value, width] at renewed
  exact ⟨reachable, carry, value, last, outcomes, final, _, others, yielded, later, renewed⟩

/-- Without effects, the outcomes of the requests are those of the run without realignments. -/
theorem Untraced.kept_eq {handle : LiveHandle Id} {plan : List (Option Request)}
    (untraced : handle.Untraced plan) :
    Outcome.kept plan (Id.run ((Handle.live handle).respondAll (Request.realigned plan))).2 =
      (Id.run ((Handle.live handle).respondAll plan.reduceOption)).2 :=
  congrArg Prod.snd untraced

/-- On this handle, one realignment before one more byte changes how the byte comes out. -/
theorem realignment_changes_output_feedback :
    let handle := ([.setKey [1], .setIv [], .encryptInPlace [0]] : List Request).foldl
      LiveHandle.after (Specimen.masked .ofb { syncEnabled := true })
    let plan : List (Option Request) := [none, some (.encryptInPlace [0])]
    let plain := Id.run ((Handle.live handle).respondAll plan.reduceOption)
    let realigned := Id.run ((Handle.live handle).respondAll (Request.realigned plan))
    let sent (outcomes : List (Outcome Id)) :=
      (exchanges plan.reduceOption outcomes).map Exchange.output
    handle.Reachable ∧ handle.mode = .ofb ∧ handle.mode ≠ .cfb ∧
      sent plain.2 = [[0]] ∧ sent (Outcome.kept plan realigned.2) = [[1]] ∧
      ¬ handle.Untraced plan := by
  intro handle plan plain realigned sent
  have reachable : handle.Reachable := (Specimen.reachable_masked rfl rfl).afterAll _
  have feedback : handle.mode = .ofb := (sameShape_afterAll _ _).mode
  have before : sent plain.2 = [[0]] := by decide +kernel
  have after : sent (Outcome.kept plan realigned.2) = [[1]] := by decide +kernel
  refine ⟨reachable, feedback, by rw [feedback]; decide, before, after, fun untraced => ?_⟩
  rw [untraced.kept_eq, before] at after
  exact absurd after (by decide)

end LiveHandle

end CipherEngine
