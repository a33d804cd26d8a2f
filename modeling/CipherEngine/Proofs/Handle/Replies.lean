import CipherEngine.Proofs.Handle.MessageCall
import CipherEngine.Proofs.Storage.Copies

/-!
# What settings leave

A key, a chaining value, a counter and a reset copy into the arena. Where the copies fit, what is
left is said here without them: a key and a reset always fit, and the other two do where blocks
have the length of their slots. If a copy does not fit, the handle is left as it was.

What a request that is no call may end in is said once, by `EndsIn`. What holds of every handle that
such a request leaves is then shown for each of its cases.
-/
namespace CipherEngine.LiveHandle

variable {m : Type → Type}

/-- What a key leaves: the context as the primitive left it, and kept as the template if the key
was accepted; with the verdict, and what is logged. -/
def afterKeying (handle : LiveHandle m) (keying : Keying) :
    LiveHandle m × Except Refusal Unit × List Event :=
  let arena := handle.arena.put .live 0 keying.context
  match keying.verdict with
  | .ok () => ({ handle with arena := arena.committed, keyed := true }, .ok (), [])
  | .error cause =>
    ({ handle with arena, keyed := false }, .error cause.toRefusal,
      [.keyRefused handle.pin.id cause])

/-- What a chaining value leaves, and what is logged. -/
def afterIv (handle : LiveHandle m) (iv : Bytes) : LiveHandle m × List Event :=
  ({ handle with
    arena := (handle.arena.clear .iv).put .iv 0 (iv.take handle.blockLength)
    carry := 0 }, handle.ivEvents iv)

/-- What a counter leaves, and the verdict on its length. -/
def afterCounter (handle : LiveHandle m) (counter : Option Bytes) :
    LiveHandle m × Except Refusal Unit :=
  match counter with
  | none => ({ handle with arena := handle.arena.clear .counter }, .ok ())
  | some block =>
    if block.length = handle.blockLength then
      ({ handle with arena := handle.arena.put .counter 0 block }, .ok ())
    else if block.isEmpty then
      ({ handle with arena := handle.arena.clear .counter }, .ok ())
    else
      (handle, .error (.argument (.counterLength handle.blockLength block.length)))

/-- What a reset leaves, and whether there was a key to reset to. -/
def afterReset (handle : LiveHandle m) : LiveHandle m × Except Refusal Unit :=
  if handle.keyed then
    ({ handle with
      arena :=
        ((((handle.arena.restored).clear .iv).clear .previous).clear .counter).clear .scratch
      carry := 0 }, .ok ())
  else (handle, .error (.configuration .noKey))

/-- What a request that is no call may leave and say: what a setting leaves; what a realignment
leaves, if that is `Aligned`; the handle as it was, with something shown of it; or the handle as it
was, after a fault. -/
inductive EndsIn (handle : LiveHandle m) (Aligned : LiveHandle m → Prop) :
    Request → Outcome m → Prop where
  | keyed (key : Bytes) (keying : Keying) :
      EndsIn handle Aligned (.setKey key)
        ((handle.afterKeying keying).1.answered (.done (handle.afterKeying keying).2.1)
          (handle.afterKeying keying).2.2)
  | valued (iv : Bytes) :
      EndsIn handle Aligned (.setIv iv)
        ((handle.afterIv iv).1.answered (.done (.ok ())) (handle.afterIv iv).2)
  | counted (counter : Option Bytes) :
      EndsIn handle Aligned (.setCounter counter)
        ((handle.afterCounter counter).1.answered (.done (handle.afterCounter counter).2) [])
  | aligned {after : LiveHandle m} (holds : Aligned after) :
      EndsIn handle Aligned .syncFeedback (after.answered (.done (.ok ())) [])
  | stealing (enable : Bool) :
      EndsIn handle Aligned (.setStealing enable)
        ((handle.setStealing enable).1.answered (.done (handle.setStealing enable).2) [])
  | tagging (enable : Bool) :
      EndsIn handle Aligned (.setMac enable)
        ((handle.setMac enable).1.answered (.done (handle.setMac enable).2) [])
  | restored :
      EndsIn handle Aligned .reset (handle.afterReset.1.answered (.done handle.afterReset.2) [])
  | shown (request : Request) (reply : Reply) :
      EndsIn handle Aligned request (handle.answered reply [])
  | faulted (request : Request) (cause : Fault) :
      EndsIn handle Aligned request (handle.faulted cause)

/-- The outcome of a realignment. -/
def realigned (handle : LiveHandle m) : Except Fault (LiveHandle m) → Outcome m
  | .ok after => after.answered (.done (.ok ())) []
  | .error cause => handle.faulted cause

variable [Monad m]

/-- Switching stealing is answered at once. -/
theorem respond_setStealing (handle : LiveHandle m) (enable : Bool) :
    handle.respond (.setStealing enable) =
      pure ((handle.setStealing enable).1.answered (.done (handle.setStealing enable).2) []) := rfl

/-- And so is switching MAC output. -/
theorem respond_setMac (handle : LiveHandle m) (enable : Bool) :
    handle.respond (.setMac enable) =
      pure ((handle.setMac enable).1.answered (.done (handle.setMac enable).2) []) := rfl

variable [LawfulMonad m]

/-- A request that goes through is answered. -/
theorem fulfil_pure (handle after : LiveHandle m) (result : Except Refusal Unit)
    (events : List Event) :
    handle.fulfil (pure (after, result, events)) = pure (after.answered (.done result) events) := by
  rw [fulfil]
  exact pure_bind _ _

/-- One that does not leaves the handle as it was. -/
theorem fulfil_throw (handle : LiveHandle m) (cause : Fault) :
    handle.fulfil (throw cause) = pure (handle.faulted cause) := by
  rw [fulfil]
  exact pure_bind _ _

/-- A key is answered with what it leaves. -/
theorem respond_setKey (handle : LiveHandle m) (key : Bytes) :
    handle.respond (.setKey key) = (do
      let keying ← handle.primitive.setKey (handle.arena.read .live) key
      pure ((handle.afterKeying keying).1.answered (.done (handle.afterKeying keying).2.1)
        (handle.afterKeying keying).2.2)) := by
  rw [respond, fulfil, setKey, ExceptT.run_bind, ExceptT.run_lift, bind_assoc, bind_map_left]
  refine bind_congr fun keying => ?_
  have fulfilled := handle.fulfil_pure (m := m)
  simp only [afterKeying]
  cases keying.verdict with
  | ok =>
    rw [Arena.commit_eq, pure_bind]
    exact fulfilled _ _ _
  | error cause => exact fulfilled _ _ _

/-- Where the primitive yields a verdict on a key, the answer is what it leaves. -/
theorem respond_setKey_yields {handle : LiveHandle m} {key : Bytes} {keying : Keying}
    (given : Yields (handle.primitive.setKey (handle.arena.read .live) key) keying) :
    Yields (handle.respond (.setKey key))
      ((handle.afterKeying keying).1.answered (.done (handle.afterKeying keying).2.1)
        (handle.afterKeying keying).2.2) := by
  rw [respond_setKey]
  exact Yields.bind given (Yields.pure _)

/-- A reset is answered with what it leaves. -/
theorem respond_reset (handle : LiveHandle m) :
    handle.respond .reset = pure (handle.afterReset.1.answered (.done handle.afterReset.2) []) := by
  rw [respond, reset, afterReset]
  split
  · rw [Arena.restore_eq, pure_bind, pure_bind, fulfil_pure]
  · rw [pure_bind, fulfil_pure]

/-- A chaining value is answered with what it leaves, or does not fit its slot. -/
theorem respond_setIv_cases (handle : LiveHandle m) (iv : Bytes) :
    handle.respond (.setIv iv) =
        pure ((handle.afterIv iv).1.answered (.done (.ok ())) (handle.afterIv iv).2) ∨
      (handle.arena.layout.size .iv ≠ handle.blockLength ∧
        ∃ cause, handle.respond (.setIv iv) = pure (handle.faulted cause)) := by
  rw [respond, setIv]
  by_cases fits : 0 + (iv.take handle.blockLength).length ≤
      (handle.arena.clear .iv).layout.size .iv
  · rw [Arena.write_of_fits fits, pure_bind, pure_bind, fulfil_pure]
    exact .inl rfl
  · refine .inr ⟨fun same => fits ?_, ?_⟩
    · rw [Arena.clear, Arena.layout_put, same, Nat.zero_add]
      exact List.length_take_le _ _
    · rw [Arena.write_of_exceeds fits, throw_bind, throw_bind, fulfil_throw]
      exact ⟨_, rfl⟩

/-- A counter is answered with what it leaves, or does not fit its slot. -/
theorem respond_setCounter_cases (handle : LiveHandle m) (counter : Option Bytes) :
    handle.respond (.setCounter counter) =
        pure ((handle.afterCounter counter).1.answered (.done (handle.afterCounter counter).2) []) ∨
      (handle.arena.layout.size .counter ≠ handle.blockLength ∧
        ∃ cause, handle.respond (.setCounter counter) = pure (handle.faulted cause)) := by
  rw [respond]
  cases counter with
  | none =>
    rw [setCounter, pure_bind, fulfil_pure]
    exact .inl rfl
  | some block =>
    rw [setCounter, afterCounter]
    split
    · next whole =>
      by_cases fits : block.length = handle.arena.layout.size .counter
      · rw [Arena.copy_of_width fits, pure_bind, pure_bind, fulfil_pure]
        exact .inl rfl
      · rw [Arena.copy_of_ne fits, throw_bind, throw_bind, fulfil_throw]
        exact .inr ⟨fun same => fits (whole.trans same.symm), _, rfl⟩
    · split <;>
      · rw [pure_bind, fulfil_pure]
        exact .inl rfl

/-- A realignment is answered with what it leaves. -/
theorem respond_syncFeedback (handle : LiveHandle m) :
    handle.respond .syncFeedback = (do
      let result ← handle.syncFeedback.run
      pure (handle.realigned result)) := by
  rw [respond, fulfil, ExceptT.run_bind, bind_assoc]
  refine bind_congr fun result => ?_
  cases result <;> exact pure_bind _ _

omit [LawfulMonad m] in
/-- A realignment finds nothing to do if the handle does not allow it, or carries nothing. -/
theorem syncFeedback_idle {handle : LiveHandle m}
    (idle : handle.flags.syncEnabled = false ∨ handle.carry = 0) :
    (handle.syncFeedback : Checked m (LiveHandle m)) = pure handle := by
  have resting : (handle.flags.syncEnabled && decide (handle.carry ≠ 0)) = false := by
    obtain disabled | boundary := idle
    · rw [disabled, Bool.false_and]
    · simp [boundary]
  rw [syncFeedback, resting]
  rfl

/-- A realignment that goes through is answered with the handle it leaves. -/
theorem respond_syncFeedback_gives {handle after : LiveHandle m}
    (given : Gives (handle.syncFeedback : Checked m (LiveHandle m)) after) :
    Yields (handle.respond .syncFeedback) (after.answered (.done (.ok ())) []) := by
  rw [respond_syncFeedback]
  exact Yields.bind given (Yields.pure _)

/-- A request that is no call ends in nothing else, whatever the primitive does. -/
theorem respond_endsIn (handle : LiveHandle m) {request : Request} (silent : request.call? = none)
    {Aligned : LiveHandle m → Prop}
    (aligns : Guards (handle.syncFeedback : Checked m (LiveHandle m)) Aligned) :
    Ensures (handle.respond request) (handle.EndsIn Aligned request) := by
  cases request with
  | encrypt | decrypt | encryptInPlace | decryptInPlace => cases silent
  | setKey key =>
    rw [respond_setKey]
    exact Ensures.bind (Ensures.always _ fun _ => trivial) fun keying _ =>
      Ensures.pure (.keyed key keying)
  | setIv iv =>
    rcases respond_setIv_cases handle iv with given | ⟨_, cause, given⟩ <;> rw [given]
    · exact Ensures.pure (.valued iv)
    · exact Ensures.pure (.faulted _ cause)
  | setCounter counter =>
    rcases respond_setCounter_cases handle counter with given | ⟨_, cause, given⟩ <;> rw [given]
    · exact Ensures.pure (.counted counter)
    · exact Ensures.pure (.faulted _ cause)
  | syncFeedback =>
    rw [respond_syncFeedback]
    refine Ensures.bind aligns fun result holds => ?_
    cases result with
    | ok after => exact Ensures.pure (.aligned (holds after rfl))
    | error cause => exact Ensures.pure (.faulted _ cause)
  | setStealing enable => exact Ensures.pure (.stealing enable)
  | setMac enable => exact Ensures.pure (.tagging enable)
  | reset =>
    rw [respond_reset]
    exact Ensures.pure .restored
  | algorithm | mode | flags | blockLength | isKeyed | isSecure => exact Ensures.pure (.shown _ _)

end CipherEngine.LiveHandle
