import CipherEngine.Proofs.Handle.Indistinct
import CipherEngine.Proofs.Handle.Settings
import CipherEngine.Proofs.Specimen

/-!
# Keys and resets

An accepted key is copied into the template, and nothing but a key changes the template
again. If what an accepted key leaves depends on the key alone, the template of a keyed
handle is therefore the context of its last key, and a reset leads to where a new handle
stands with that key, whatever has been asked before.
-/
namespace CipherEngine

variable {m : Type → Type}

/-- An accepted key leaves the context that the schedule gives for it, whatever the context
was before, and of the declared size. -/
def Algorithm.Schedules [Functor m] (algorithm : Algorithm m) (schedule : Bytes → Bytes) : Prop :=
  ∀ context key, context.length = algorithm.contextSize.toNat →
    Ensures (algorithm.primitive.setKey context key) fun keying =>
      keying.verdict = .ok () → keying.context = schedule key ∧
        keying.context.length = algorithm.contextSize.toNat

/-- The masking specimen takes the key, cut or padded, as its context. -/
theorem Specimen.masking_schedules : masking.Schedules (Bytes.fit 16) := by
  intro context key _
  apply Ensures.pure (m := Id)
  cases key with
  | nil =>
    intro accepted
    cases accepted
  | cons byte rest => exact fun _ => ⟨rfl, Bytes.length_fit 16 _⟩

namespace LiveHandle

/-- What a key leaves of the handle, and both contexts if the key was accepted. -/
structure Rekeyed (handle : LiveHandle m) (context : Bytes) (next : LiveHandle m) : Prop where
  shape : handle.SameShape next
  flags : next.flags = handle.flags
  carry : next.carry = handle.carry
  blocks : ∀ slot, slot ≠ .live ∧ slot ≠ .template →
    next.arena.read slot = handle.arena.read slot
  live : next.keyed = true → next.arena.read .live = context
  template : next.keyed = true → next.arena.read .template = context

/-- A reset of a keyed handle succeeds, ends the carry, and keeps the options. -/
theorem reset_keyed {handle : LiveHandle m} (keyed : handle.keyed = true) :
    handle.afterReset.2 = .ok () ∧ handle.afterReset.1.keyed = true ∧
      handle.afterReset.1.carry = 0 ∧
      handle.afterReset.1.flags = handle.flags := by
  rw [afterReset, if_pos keyed]
  exact ⟨rfl, keyed, rfl, rfl⟩

variable [Monad m] [LawfulMonad m] {schedule : Bytes → Bytes}

/-- A key is answered with a verdict, and leaves the handle with a key exactly if it was
accepted. Both contexts are then what the schedule gives. -/
theorem Fitted.respond_setKey {handle : LiveHandle m} (fitted : handle.Fitted)
    (schedules : handle.pin.algorithm.Schedules schedule) (key : Bytes) :
    Ensures (handle.respond (.setKey key)) fun outcome =>
      ∃ next result events, outcome = next.answered (.done result) events ∧
        (result = .ok () → next.keyed = true) ∧ handle.Rekeyed (schedule key) next := by
  have sized : (handle.arena.read .live).length = handle.pin.algorithm.contextSize.toNat :=
    fitted.length_context
  rw [LiveHandle.respond_setKey]
  refine Ensures.bind (schedules _ key sized) fun keying scheduled => Ensures.pure ?_
  have blocks := fun slot => @read_afterKeying m handle keying slot
  simp only [afterKeying] at blocks ⊢
  cases verdict : keying.verdict with
  | ok =>
    obtain ⟨context, width⟩ := scheduled verdict
    have live : (handle.arena.put .live 0 keying.context).read .live = schedule key := by
      rw [Arena.read_put_whole _ ((width.trans sized.symm).trans (Arena.length_read _ _)),
        context]
    rw [verdict] at blocks
    refine ⟨_, _, _, rfl, fun _ => rfl, ⟨rfl, rfl, rfl⟩, rfl, rfl, blocks, ?_, ?_⟩
    · exact fun _ => (Arena.read_committed_of_ne _ (by decide)).trans live
    · exact fun _ => (Arena.read_committed_template _).trans live
  | error cause =>
    rw [verdict] at blocks
    refine ⟨_, _, _, rfl, fun accepted => ?_, ⟨rfl, rfl, rfl⟩, rfl, rfl, blocks,
      fun keyed => ?_, fun keyed => ?_⟩
    · cases accepted
    · cases keyed
    · cases keyed

/-- After an accepted key the handle has one, and both contexts are what the schedule gives. -/
theorem Fitted.rekeyed_of_accepted {handle keyed : LiveHandle m} (fitted : handle.Fitted)
    (schedules : handle.pin.algorithm.Schedules schedule) {key : Bytes}
    (accepted : MayReturn (handle.respond (.setKey key)) (keyed.answered (.done (.ok ())) [])) :
    keyed.keyed = true ∧ handle.Rekeyed (schedule key) keyed := by
  obtain ⟨next, result, events, same, succeeds, rekeyed⟩ :=
    accepted _ (fitted.respond_setKey schedules key)
  obtain ⟨left, ⟨⟩, _⟩ := Outcome.mk.inj same
  obtain rfl : keyed = next := Handle.live.inj left
  exact ⟨succeeds rfl, rekeyed⟩

/-- The handles whose last key, accepted or not, was this one. -/
inductive LastKeyed (key : Bytes) : LiveHandle m → Prop where
  | given {handle next : LiveHandle m} {outcome : Outcome m} :
    handle.Reachable → MayReturn (handle.respond (.setKey key)) outcome →
      outcome.handle = .live next → LastKeyed key next
  | requested {handle next : LiveHandle m} {request : Request} {outcome : Outcome m} :
    LastKeyed key handle → (∀ other, request ≠ .setKey other) →
      MayReturn (handle.respond request) outcome → outcome.handle = .live next →
        LastKeyed key next

omit [LawfulMonad m] in
/-- A handle with a last key can be reached. -/
theorem LastKeyed.reachable {key : Bytes} {handle : LiveHandle m} (keyed : handle.LastKeyed key) :
    handle.Reachable := by
  induction keyed with
  | given reachable returned left => exact .requested reachable returned left
  | requested _ _ returned left inductionHypothesis =>
    exact .requested inductionHypothesis returned left

/-- The template of a keyed handle is the context of its last key, and in a mode that chains
blocks so is the context. -/
theorem LastKeyed.contexts {key : Bytes} {handle : LiveHandle m} (lastKeyed : handle.LastKeyed key)
    (schedules : handle.pin.algorithm.Schedules schedule) (keyed : handle.keyed = true) :
    handle.arena.read .template = schedule key ∧
      (handle.mode.chainsBlocks = true → handle.arena.read .live = schedule key) := by
  -- On the requests since the key: each of them leaves the template and the verdict, and the
  -- context stays unless it becomes the template again.
  induction lastKeyed with
  | @given handle next outcome reachable returned left =>
    rw [(LeftBy.of_returned returned left).shape.pin] at schedules
    obtain ⟨rekeyed, _, _, rfl, _, given⟩ :=
      returned _ (reachable.fitted.respond_setKey schedules key)
    obtain rfl : rekeyed = next := Handle.live.inj left
    exact ⟨given.template keyed, fun _ => given.live keyed⟩
  | @requested handle next request outcome _ other returned left inductionHypothesis =>
    have keeps := LeftBy.of_returned returned left
    have same := keeps.key other
    rw [keeps.shape.pin] at schedules
    obtain ⟨template, live⟩ := inductionHypothesis schedules (same.keyed.symm.trans keyed)
    refine ⟨same.template.trans template, fun chains => ?_⟩
    rw [keeps.shape.mode] at chains
    obtain stays | restored := keeps.context other (Mode.ne_stream_of_chainsBlocks chains)
    · exact stays.trans (live chains)
    · exact restored.trans template

/-- A key is the last one of the handle after it. -/
theorem Reachable.lastKeyed {handle : LiveHandle Id} (reachable : handle.Reachable) (key : Bytes) :
    (handle.after (.setKey key)).LastKeyed key :=
  .given reachable (MayReturn.self (handle.respond (.setKey key))) (handle.respond_after _)

/-- The last key stays the last one after any other request. -/
theorem LastKeyed.after {handle : LiveHandle Id} {key : Bytes} (keyed : handle.LastKeyed key)
    {request : Request} (other : ∀ key, request ≠ .setKey key) :
    (handle.after request).LastKeyed key :=
  .requested keyed other (MayReturn.self (handle.respond request)) (handle.respond_after _)

/-- After a reset every slot holds what it holds in a new handle of the algorithm that has just
accepted the last key. -/
theorem LastKeyed.read_afterReset {handle opened fresh : LiveHandle m} {key : Bytes}
    (lastKeyed : handle.LastKeyed key) (keyed : handle.keyed = true)
    (schedules : handle.pin.algorithm.Schedules schedule) (openedFitted : opened.Fitted)
    (algorithm : opened.pin.algorithm = handle.pin.algorithm)
    (zeros : ∀ slot, opened.arena.read slot = Bytes.zeros (opened.arena.layout.size slot))
    (rekeyed : opened.Rekeyed (schedule key) fresh) (freshKeyed : fresh.keyed = true)
    (slot : Slot) : handle.afterReset.1.arena.read slot = fresh.arena.read slot := by
  have template := (lastKeyed.contexts schedules keyed).1
  have sizes := lastKeyed.reachable.fitted.sizes openedFitted
    (congrArg Algorithm.contextSize algorithm) (congrArg Algorithm.blockLength algorithm)
  rw [LiveHandle.read_afterReset keyed]
  cases slot with
  | live => exact template.trans (rekeyed.live freshKeyed).symm
  | template => exact template.trans (rekeyed.template freshKeyed).symm
  | iv | previous | counter | scratch => rw [rekeyed.blocks _ (by decide), zeros, sizes]

/-- A reset of a keyed handle is done without the primitive. It leaves the handle as a new
one of its algorithm, mode and options stands that has just accepted the last key: every
slot holds the same, as little is carried, and whatever is asked from then on looks the
same. -/
theorem reset_is_fresh {handle : LiveHandle m} {key : Bytes} (lastKeyed : handle.LastKeyed key)
    (keyed : handle.keyed = true) (schedules : handle.pin.algorithm.Schedules schedule) :
    handle.respond .reset = pure (handle.afterReset.1.answered (.done (.ok ())) []) ∧
    ∀ {registry : Registry m} {id : AlgorithmId} {machine : Machine} {opened fresh : LiveHandle m},
      (Handle.openOn registry id handle.mode handle.flags machine).value = .ok (.live opened) →
      opened.pin.id = handle.pin.id → opened.pin.algorithm = handle.pin.algorithm →
      MayReturn (opened.respond (.setKey key)) (fresh.answered (.done (.ok ())) []) →
        (∀ slot, handle.afterReset.1.arena.read slot = fresh.arena.read slot) ∧
        handle.afterReset.1.mode = fresh.mode ∧ handle.afterReset.1.flags = fresh.flags ∧
        handle.afterReset.1.carry = fresh.carry ∧ handle.afterReset.1.keyed = fresh.keyed ∧
        ∀ later, observed <$> (Handle.live handle.afterReset.1).respondAll later =
          observed <$> (Handle.live fresh).respondAll later := by
  obtain ⟨accepted, stillKeyed, rests, options⟩ := reset_keyed keyed
  refine ⟨by rw [respond_reset, accepted], ?_⟩
  intro registry id machine opened fresh given sameId sameAlgorithm returned
  have openedFitted := Fitted.opened given
  have openedSchedules : opened.pin.algorithm.Schedules schedule := by
    rw [sameAlgorithm]
    exact schedules
  obtain ⟨freshKeyed, rekeyed⟩ := openedFitted.rekeyed_of_accepted openedSchedules returned
  have slots := lastKeyed.read_afterReset keyed schedules openedFitted sameAlgorithm
    (opened_zeros given) rekeyed freshKeyed
  obtain ⟨_, _, _, rfl, _, _⟩ := Handle.openOn_gives given
  have shape := afterReset_sameShape handle
  have mode : fresh.mode = handle.afterReset.1.mode := rekeyed.shape.mode.trans shape.mode.symm
  have flags : fresh.flags = handle.afterReset.1.flags := rekeyed.flags.trans options.symm
  have carry : fresh.carry = handle.afterReset.1.carry := rekeyed.carry.trans rests.symm
  have alike : fresh.keyed = handle.afterReset.1.keyed := freshKeyed.trans stillKeyed.symm
  have indistinct : handle.afterReset.1.Indistinct (coupling m) True fresh := by
    refine ⟨⟨?_, mode, flags, alike, carry, fun slot _ => (slots slot).symm⟩, ?_,
      lastKeyed.reachable.fitted.of_sameShape shape, openedFitted.of_sameShape rekeyed.shape,
      fun _ => rests, fun _ => trivial⟩
    · rw [rekeyed.shape.pin, shape.pin]
      exact sameId
    · rw [rekeyed.shape.pin, shape.pin, sameAlgorithm]
      exact Algorithm.Matches.refl _
  exact ⟨slots, mode.symm, flags.symm, carry.symm, alike.symm, indistinct.observed_respondAll⟩

/-- The masking specimen in counter mode: two keys, a refused one between them, a message and
a counter, and then a reset. -/
theorem reset_is_fresh_specimen :
    let handle := ([.setKey [1], .setKey [], .setKey [2, 3], .encryptInPlace (Bytes.zeros 20),
      .setCounter (some (List.replicate 16 7))] : List Request).foldl LiveHandle.after
        (Specimen.masked .ctr {})
    let fresh := (Specimen.masked .ctr {}).after (.setKey [2, 3])
    ∀ later, observed <$> (Handle.live handle.afterReset.1).respondAll later =
      observed <$> (Handle.live fresh).respondAll later := by
  intro handle fresh
  have opened : (Specimen.masked .ctr {}).Reachable := Specimen.reachable_masked rfl rfl
  have keyed := ((opened.after (.setKey [1])).after (.setKey [])).lastKeyed [2, 3]
  have sent := keyed.after (show ∀ key, Request.encryptInPlace (Bytes.zeros 20) ≠
    .setKey key from fun _ same => nomatch same)
  have counted := sent.after (show ∀ key, Request.setCounter (some (List.replicate 16 7)) ≠
    .setKey key from fun _ same => nomatch same)
  have lastKeyed : handle.LastKeyed [2, 3] := by
    simpa only [handle, List.foldl_cons, List.foldl_nil] using counted
  have shape : (Specimen.masked .ctr {}).SameShape handle := sameShape_afterAll _ _
  have algorithm : handle.pin.algorithm = Specimen.masking := congrArg Pin.algorithm shape.pin
  have schedules : handle.pin.algorithm.Schedules (Bytes.fit 16) :=
    algorithm ▸ Specimen.masking_schedules
  have flags : handle.flags = {} := by decide +kernel
  have given : (Handle.openOn (Registry.empty.register Specimen.masking).registry firstFreeId
      handle.mode handle.flags .common).value = .ok (.live (Specimen.masked .ctr {})) := by
    rw [shape.mode, flags]
    exact Specimen.openOn_registered rfl rfl rfl rfl rfl
  exact ((reset_is_fresh lastKeyed (by decide +kernel) schedules).2 given
    (congrArg Pin.id shape.pin).symm algorithm.symm (Specimen.masking_takes rfl 2 [3])).2.2.2.2.2

end LiveHandle

end CipherEngine
