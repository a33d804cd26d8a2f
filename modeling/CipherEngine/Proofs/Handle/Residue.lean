import CipherEngine.Proofs.Handle.Rekeying

/-!
# No residue of earlier use

A key, a chaining value and a counter replace all that two handles can still read of
their pasts: the contexts, the chaining value and the carry, and in counter mode the
counter. The previous chaining values may still differ, but at a block boundary nothing
reads them before they are written. A counter that is refused replaces nothing, and in
counter mode what is asked afterwards may show it.
-/
namespace CipherEngine.LiveHandle

variable {m : Type → Type}

/-- A new counter changes the counter alone, accepted or not. -/
theorem setCounter_only (handle : LiveHandle m) (counter : Option Bytes) :
    ∃ arena, (handle.afterCounter counter).1 = { handle with arena } ∧
      arena.layout = handle.arena.layout ∧
      ∀ slot, slot ≠ .counter → arena.read slot = handle.arena.read slot := by
  have written (bytes : Bytes) (slot : Slot) (other : slot ≠ .counter) :
      (handle.arena.put .counter 0 bytes).read slot = handle.arena.read slot :=
    Arena.read_put_of_ne _ _ _ other.symm
  cases counter with
  | none => exact ⟨_, rfl, rfl, written _⟩
  | some block =>
    rw [afterCounter]
    split
    · exact ⟨_, rfl, rfl, written block⟩
    · split
      · exact ⟨_, rfl, rfl, written _⟩
      · exact ⟨handle.arena, rfl, rfl, fun _ _ => rfl⟩

/-- An accepted counter does not depend on the one before it. -/
theorem counterAfter_of_accepted {handle : LiveHandle m} {counter : Option Bytes}
    (accepted : (handle.afterCounter counter).2 = .ok ()) (held other : Bytes) :
    counterAfter handle.blockLength held counter =
      counterAfter handle.blockLength other counter := by
  cases counter with
  | none => rfl
  | some block =>
    rw [afterCounter] at accepted
    rw [counterAfter, counterAfter]
    split at accepted
    · next fills => rw [if_pos fills, if_pos fills]
    · next unfit =>
      split at accepted
      · next empty => rw [if_neg unfit, if_neg unfit, if_pos empty, if_pos empty]
      · cases accepted

/-- Handles of one block length give the same verdict on a counter. -/
theorem afterCounter_verdict {handle other : LiveHandle m}
    (width : other.blockLength = handle.blockLength) (counter : Option Bytes) :
    (other.afterCounter counter).2 = (handle.afterCounter counter).2 := by
  cases counter with
  | none => rfl
  | some block =>
    rw [afterCounter, afterCounter, width]
    split
    · rfl
    · split <;> rfl

/-- The handle after a chaining value and a counter. -/
def restarted (handle : LiveHandle m) (iv : Bytes) (counter : Option Bytes) : LiveHandle m :=
  ((handle.afterIv iv).1.afterCounter counter).1

/-- The counter after a new one, or none, or a refused one. -/
theorem Fitted.read_afterCounter {handle : LiveHandle m} (fitted : handle.Fitted)
    (counter : Option Bytes) :
    (handle.afterCounter counter).1.arena.read .counter =
      counterAfter handle.blockLength (handle.arena.read .counter) counter :=
  (fitted.holds_afterCounter (fun context _ => Keying.ignored context) counter).counter

variable [Monad m] [LawfulMonad m]

/-- Handles that are keyed alike are indistinct after a chaining value and a counter. In
counter mode the counter must be accepted. -/
theorem KeyedAlike.restarted {handle twin : LiveHandle m} (alike : handle.KeyedAlike twin)
    (fitted : handle.Fitted) (twinFitted : twin.Fitted) (iv : Bytes) {counter : Option Bytes}
    (counted : handle.mode = .ctr → (handle.afterCounter counter).2 = .ok ()) :
    (handle.restarted iv counter).Indistinct (coupling m) (handle.mode = .ctr)
      (twin.restarted iv counter) := by
  have width : twin.blockLength = handle.blockLength := by
    rw [blockLength, alike.algorithm]
    rfl
  have given := congrArg Chain.iv (fitted.chain_afterIv iv)
  have twinGiven := congrArg Chain.iv (twinFitted.chain_afterIv iv)
  have counters := (fitted.of_sameShape (afterIv_sameShape handle iv)).read_afterCounter counter
  have twinCounters :=
    (twinFitted.of_sameShape (afterIv_sameShape twin iv)).read_afterCounter counter
  obtain ⟨arena, same, layout, kept⟩ := setCounter_only (handle.afterIv iv).1 counter
  obtain ⟨twinArena, twinSame, twinLayout, twinKept⟩ := setCounter_only (twin.afterIv iv).1 counter
  rw [same] at counters
  rw [twinSame] at twinCounters
  have unchanged (slot : Slot) (notCounter : slot ≠ .counter) (notIv : Slot.iv ≠ slot) :
      arena.read slot = handle.arena.read slot ∧ twinArena.read slot = twin.arena.read slot :=
    ⟨(kept slot notCounter).trans (read_afterIv handle iv notIv),
      (twinKept slot notCounter).trans (read_afterIv twin iv notIv)⟩
  rw [LiveHandle.restarted, LiveHandle.restarted, same, twinSame]
  refine ⟨⟨alike.id, alike.mode, alike.flags, alike.keyed, rfl, fun slot visible => ?_⟩, ?_,
    fitted.of_sameShape ⟨rfl, rfl, layout⟩, twinFitted.of_sameShape ⟨rfl, rfl, twinLayout⟩,
    fun _ => rfl, fun counted => counted⟩
  · cases slot with
    | live =>
      obtain ⟨here, there⟩ := unchanged .live (by decide) (by decide)
      exact there.trans (alike.live.trans here.symm)
    | template =>
      obtain ⟨here, there⟩ := unchanged .template (by decide) (by decide)
      exact there.trans (alike.template.trans here.symm)
    | iv =>
      have values : Bytes.fit twin.blockLength iv = Bytes.fit handle.blockLength iv := by
        rw [width]
      exact (twinKept .iv (by decide)).trans (twinGiven.trans
        (values.trans ((kept .iv (by decide)).trans given).symm))
    | previous => exact absurd rfl visible
    | counter =>
      -- The counters before may differ, and only an accepted one forgets them.
      have replaced := counterAfter_of_accepted (counted visible)
      refine twinCounters.trans (Eq.trans ?_ counters.symm)
      change counterAfter twin.blockLength _ counter = counterAfter handle.blockLength _ counter
      rw [width]
      exact replaced _ _
    | scratch => exact False.elim visible
  · change handle.pin.algorithm.Matches (coupling m) twin.pin.algorithm
    rw [alike.algorithm]
    exact Algorithm.Matches.refl _

/-- A request that is answered at once is seen, and then what follows it. -/
theorem observed_respondAll_answered {handle next : LiveHandle m} {request : Request}
    {reply : Reply} {events : List Event}
    (answered : handle.respond request = pure (next.answered reply events)) (rest : List Request) :
    observed <$> (Handle.live handle).respondAll (request :: rest) =
      (fun seen => (.ok reply, events) :: seen) <$>
        observed <$> (Handle.live next).respondAll rest := by
  have first : (Handle.live handle).respond request = pure (next.answered reply events) := answered
  rw [Handle.respondAll, first, pure_bind]
  simp [LiveHandle.answered, observed]

/-- An accepted key leaves handles of one algorithm, mode and choice of options keyed alike,
whatever they were asked before. -/
theorem keyedAlike_of_accepted {schedule : Bytes → Bytes} {key : Bytes}
    {handle other keyed otherKeyed : LiveHandle m} (fitted : handle.Fitted)
    (otherFitted : other.Fitted) (id : other.pin.id = handle.pin.id)
    (algorithm : other.pin.algorithm = handle.pin.algorithm) (mode : other.mode = handle.mode)
    (flags : other.flags = handle.flags) (schedules : handle.pin.algorithm.Schedules schedule)
    (accepted : MayReturn (handle.respond (.setKey key)) (keyed.answered (.done (.ok ())) []))
    (otherAccepted :
      MayReturn (other.respond (.setKey key)) (otherKeyed.answered (.done (.ok ())) [])) :
    handle.SameShape keyed ∧ other.SameShape otherKeyed ∧ keyed.KeyedAlike otherKeyed := by
  have otherSchedules : other.pin.algorithm.Schedules schedule := by
    rw [algorithm]
    exact schedules
  obtain ⟨ready, rekeyed⟩ := fitted.rekeyed_of_accepted schedules accepted
  obtain ⟨otherReady, otherRekeyed⟩ :=
    otherFitted.rekeyed_of_accepted otherSchedules otherAccepted
  refine ⟨rekeyed.shape, otherRekeyed.shape, ?_⟩
  constructor
  · rw [otherRekeyed.shape.pin, rekeyed.shape.pin, id]
  · rw [otherRekeyed.shape.pin, rekeyed.shape.pin, algorithm]
  · rw [otherRekeyed.shape.mode, rekeyed.shape.mode, mode]
  · rw [otherRekeyed.flags, rekeyed.flags, flags]
  · exact otherReady.trans ready.symm
  · exact (otherRekeyed.live otherReady).trans (rekeyed.live ready).symm
  · exact (otherRekeyed.template otherReady).trans (rekeyed.template ready).symm

/-- Two handles of one algorithm, mode and choice of options, whatever they were asked
before, look the same from the chaining value on that follows an accepted key, if in counter
mode the counter after it is accepted. -/
theorem no_residue {schedule : Bytes → Bytes} {key : Bytes}
    {handle other keyed otherKeyed : LiveHandle m} (reachable : handle.Reachable)
    (otherReachable : other.Reachable) (id : other.pin.id = handle.pin.id)
    (algorithm : other.pin.algorithm = handle.pin.algorithm) (mode : other.mode = handle.mode)
    (flags : other.flags = handle.flags) (schedules : handle.pin.algorithm.Schedules schedule)
    (accepted : MayReturn (handle.respond (.setKey key)) (keyed.answered (.done (.ok ())) []))
    (otherAccepted :
      MayReturn (other.respond (.setKey key)) (otherKeyed.answered (.done (.ok ())) []))
    (iv : Bytes) {counter : Option Bytes}
    (counted : handle.mode = .ctr → (keyed.afterCounter counter).2 = .ok ())
    (later : List Request) :
    observed <$> (Handle.live keyed).respondAll (.setIv iv :: .setCounter counter :: later) =
      observed <$>
        (Handle.live otherKeyed).respondAll (.setIv iv :: .setCounter counter :: later) := by
  obtain ⟨shape, otherShape, alike⟩ := keyedAlike_of_accepted reachable.fitted
    otherReachable.fitted id algorithm mode flags schedules accepted otherAccepted
  have fitted := reachable.fitted.of_sameShape shape
  have otherFitted := otherReachable.fitted.of_sameShape otherShape
  have fittedAfter := fitted.of_sameShape (afterIv_sameShape keyed iv)
  have otherFittedAfter := otherFitted.of_sameShape (afterIv_sameShape otherKeyed iv)
  have width : otherKeyed.blockLength = keyed.blockLength := by
    rw [blockLength, alike.algorithm]
    rfl
  have notes : (otherKeyed.afterIv iv).2 = (keyed.afterIv iv).2 := by
    rw [afterIv, afterIv, ivEvents, ivEvents, width]
  have verdict : ((otherKeyed.afterIv iv).1.afterCounter counter).2 =
      ((keyed.afterIv iv).1.afterCounter counter).2 :=
    afterCounter_verdict (show (otherKeyed.afterIv iv).1.blockLength =
      (keyed.afterIv iv).1.blockLength from width) counter
  have restarted := alike.restarted fitted otherFitted iv
    (fun counting => counted (shape.mode.symm.trans counting))
  rw [observed_respondAll_answered (fitted.respond_setIv iv),
    observed_respondAll_answered (otherFitted.respond_setIv iv), notes,
    observed_respondAll_answered (fittedAfter.respond_setCounter counter),
    observed_respondAll_answered (otherFittedAfter.respond_setCounter counter), verdict]
  have continued := restarted.observed_respondAll later
  rw [LiveHandle.restarted, LiveHandle.restarted] at continued
  rw [continued]

/-- The masking specimen in counter mode. One handle is new; the other has had another key, a
refused one, and a message that ended inside a block. -/
theorem no_residue_specimen :
    let new := Specimen.masked .ctr {}
    let used := ([.setKey [9], .setKey [], .setCounter (some (List.replicate 16 7)),
      .encryptInPlace (Bytes.zeros 20)] : List Request).foldl LiveHandle.after new
    ∀ later,
      observed <$> (Handle.live (new.after (.setKey [5]))).respondAll
          (.setIv [1] :: .setCounter (some (Bytes.zeros 16)) :: later) =
        observed <$> (Handle.live (used.after (.setKey [5]))).respondAll
          (.setIv [1] :: .setCounter (some (Bytes.zeros 16)) :: later) := by
  intro new used later
  have opened : new.Reachable := Specimen.reachable_masked rfl rfl
  have reachable : used.Reachable := opened.afterAll _
  have shape : new.SameShape used := sameShape_afterAll new _
  exact no_residue opened reachable (congrArg Pin.id shape.pin)
    (congrArg Pin.algorithm shape.pin) shape.mode (by decide +kernel) Specimen.masking_schedules
    (Specimen.masking_takes rfl 5 [])
    (Specimen.masking_takes (congrArg Pin.algorithm shape.pin) 5 []) [1]
    (fun _ => by decide +kernel) later

/-- In counter mode a refused counter leaves the earlier one, which the next message shows:
after the same key, chaining value and counter, two handles differ in the last byte of a
block. -/
theorem refused_counter_leaves_residue :
    let new := Specimen.masked .ctr {}
    let used := (new.after (.setKey [5])).after (.encryptInPlace (Bytes.zeros 16))
    let requests : List Request :=
      [.setIv [], .setCounter (some [1]), .encryptInPlace (Bytes.zeros 16)]
    new.Reachable ∧ used.Reachable ∧ used.pin = new.pin ∧ used.mode = new.mode ∧
      used.flags = new.flags ∧ new.pin.algorithm.Schedules (Bytes.fit 16) ∧
      MayReturn (new.respond (.setKey [5]))
        ((new.after (.setKey [5])).answered (.done (.ok ())) []) ∧
      MayReturn (used.respond (.setKey [5]))
        ((used.after (.setKey [5])).answered (.done (.ok ())) []) ∧
      (exchanges requests
          ((Handle.live (new.after (.setKey [5]))).respondAll requests).2).map Exchange.output =
        [5 :: Bytes.zeros 15] ∧
      (exchanges requests
          ((Handle.live (used.after (.setKey [5]))).respondAll requests).2).map Exchange.output =
        [5 :: (Bytes.zeros 14 ++ [1])] := by
  intro new used requests
  have opened : new.Reachable := Specimen.reachable_masked rfl rfl
  have reachable : used.Reachable := (opened.after _).after _
  have shape : (new.after (.setKey [5])).SameShape used := sameShape_after _ _
  have pin : used.pin = new.pin := shape.pin
  exact ⟨opened, reachable, pin, shape.mode, by decide +kernel, Specimen.masking_schedules,
    Specimen.masking_takes rfl 5 [], Specimen.masking_takes (congrArg Pin.algorithm pin) 5 [],
    by decide +kernel, by decide +kernel⟩

end CipherEngine.LiveHandle
