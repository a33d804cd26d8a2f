import CipherEngine.Handle.Raw
import CipherEngine.Proofs.Coupling
import CipherEngine.Proofs.Handle.Replies

/-!
# Records of handles

A handle is either live, and then has a pin and memory, or closed, and then has neither. The
record that it is kept in could be anything else as well, so every request looks at the tag, and
looks for the memory where it needs it. Here it is shown that nothing is lost by speaking of
handles and not of records: every record that opening, requests and closing lead to is the
record of a handle, and what is done with the record has the effects, the replies and the log
of what is done with the handle.

The two are compared step by step as coupled computations, so nothing is assumed of the
primitive: what it does is the same on both sides.
-/
namespace CipherEngine

variable {m : Type → Type} {α β γ δ ε : Type}

/-- The record of a live handle. -/
def LiveHandle.raw (handle : LiveHandle m) : RawHandle m where
  tag := if handle.flags.secure then secureTag else standardTag
  entry := some handle.pin
  arena := some handle.arena
  primitive := handle.primitive
  id := handle.pin.id
  mode := handle.mode
  flags := handle.flags
  blockLength := handle.blockLength
  carry := handle.carry
  keyed := handle.keyed

/-- The memory of a handle. -/
def Handle.memory : Handle m → Option Arena
  | .live handle => some handle.arena
  | .closed .. => none

/-- The record says that the handle is closed, and nothing is left in it. -/
structure RawHandle.Emptied (raw : RawHandle m) : Prop where
  tag : raw.tag = closedTag
  entry : raw.entry = none
  arena : raw.arena = none
  carry : raw.carry = 0
  keyed : raw.keyed = false

/-- The record is that of the handle. -/
inductive Records : RawHandle m → Handle m → Prop where
  | live (handle : LiveHandle m) : Records handle.raw (.live handle)
  | closed {raw : RawHandle m} : raw.Emptied →
      Records raw (.closed raw.id raw.mode raw.flags)

/-- The outcomes are the same, on a record and on its handle. -/
structure Shown (raw : RawOutcome m) (outcome : Outcome m) : Prop where
  handle : Records raw.handle outcome.handle
  reply : raw.reply = outcome.reply
  events : raw.events = outcome.events

/-- The outcomes are the same, have left a live handle and its record, and nothing that was needed
was gone. -/
structure ShownLive (raw : RawOutcome m) (outcome : Outcome m) : Prop where
  handle : ∃ next : LiveHandle m, raw.handle = next.raw ∧ outcome.handle = .live next
  reply : raw.reply = outcome.reply
  events : raw.events = outcome.events
  calm : ∀ cause, raw.reply ≠ .error (.fatal cause)

/-- The results are related, or the first stop is the second under another name. -/
def Matches (rename : ε → RawStop) (related : α → β → Prop) :
    Except RawStop α → Except ε β → Prop
  | .ok value, .ok other => related value other
  | .error stop, .error cause => stop = rename cause
  | _, _ => False

/-- The requests have the same effects, and their results match. -/
def Mirrors [Functor m] (rename : ε → RawStop) (related : α → β → Prop)
    (raw : RawHandle.Attempt m α) (live : ExceptT ε m β) : Prop :=
  Coupled (Matches rename related) raw.run live.run

/-- A transform has left a record and a handle that belong together, and one output. -/
def Written (result : RawHandle m × Bytes) (other : LiveHandle m × Bytes) : Prop :=
  result = (other.1.raw, other.2)

/-- A setting has left a record and a handle that belong together, one answer and one log. -/
def Fulfilled (result : RawHandle m × Reply × List Event)
    (other : LiveHandle m × Except Refusal Unit × List Event) : Prop :=
  result = (other.1.raw, .done other.2.1, other.2.2)

/-- The name of a fault among the stops of a record. -/
def RawStop.fault (cause : Fault) : RawStop := .stop (.fault cause)

/-- Results that match are related values, or a stop and its name. -/
theorem Matches.values_or_stop {rename : ε → RawStop} {related : α → β → Prop}
    {result : Except RawStop α} {other : Except ε β}
    (matched : Matches rename related result other) :
    (∃ value otherValue, result = .ok value ∧ other = .ok otherValue ∧ related value otherValue) ∨
      ∃ cause, result = .error (rename cause) ∧ other = .error cause := by
  match result, other with
  | .ok value, .ok otherValue => exact .inl ⟨value, otherValue, rfl, rfl, matched⟩
  | .error stop, .error cause => exact .inr ⟨cause, congrArg Except.error matched, rfl⟩

namespace Mirrors

variable [Monad m] [LawfulMonad m] {rename : ε → RawStop}

/-- Related values mirror each other. -/
theorem pure {related : α → β → Prop} {value : α} {other : β} (holds : related value other) :
    Mirrors rename related (Pure.pure value : RawHandle.Attempt m α) (Pure.pure other) :=
  Coupled.pure holds

/-- A stop is mirrored by its name. -/
theorem throw (related : α → β → Prop) (cause : ε) :
    Mirrors rename related (MonadExcept.throw (rename cause) : RawHandle.Attempt m α)
      (MonadExcept.throw cause) :=
  Coupled.pure rfl

/-- Related values are handed on, and a stop on one side is a stop on the other. -/
theorem bind {related : α → β → Prop} {final : γ → δ → Prop} {raw : RawHandle.Attempt m α}
    {live : ExceptT ε m β} {next : α → RawHandle.Attempt m γ} {following : β → ExceptT ε m δ}
    (mirrors : Mirrors rename related raw live)
    (continued : ∀ value other, related value other →
      Mirrors rename final (next value) (following other)) :
    Mirrors rename final (raw >>= next) (live >>= following) := by
  unfold Mirrors
  rw [ExceptT.run_bind, ExceptT.run_bind]
  refine Coupled.bind mirrors fun result other matched => ?_
  obtain ⟨value, other, rfl, rfl, holds⟩ | ⟨cause, rfl, rfl⟩ := matched.values_or_stop
  · exact continued value other holds
  · exact Coupled.pure rfl

/-- A value that is one on both sides is handed on. -/
theorem bind_same {final : γ → δ → Prop} {raw : RawHandle.Attempt m α} {live : ExceptT ε m α}
    {next : α → RawHandle.Attempt m γ} {following : α → ExceptT ε m δ}
    (mirrors : Mirrors rename (· = ·) raw live)
    (continued : ∀ value, Mirrors rename final (next value) (following value)) :
    Mirrors rename final (raw >>= next) (live >>= following) :=
  mirrors.bind fun value _ same => same ▸ continued value

/-- A computation without stops is mirrored by itself. -/
theorem lift (computation : m α) :
    Mirrors rename (· = ·) (ExceptT.lift computation) (ExceptT.lift computation) := by
  unfold Mirrors
  rw [ExceptT.run_lift, ExceptT.run_lift]
  exact (coupling m).map (Coupled.refl computation) fun _ _ same => same

/-- A computation is mirrored by itself, whatever its stops are called on either side. -/
theorem named {causes : Type} (computation : ExceptT causes m α) {first : causes → RawStop}
    {second : causes → ε} (names : ∀ cause, first cause = rename (second cause)) :
    Mirrors rename (· = ·) (ExceptT.adapt first computation)
      (ExceptT.adapt second computation) := by
  refine (coupling m).map (Coupled.refl computation.run) fun result other same => ?_
  subst same
  cases result with
  | ok value => rfl
  | error cause => exact names cause

/-- So do stops that come when the output is written to. -/
theorem after {related : α → β → Prop} {raw : RawHandle.Attempt m α}
    {live : LiveHandle.Attempt m β} (output : Bytes)
    (mirrors : Mirrors RawStop.stop related raw live) :
    Mirrors RawStop.stop related (ExceptT.adapt (RawStop.after output) raw)
      (ExceptT.adapt (Stop.after output) live) := by
  refine (coupling m).map mirrors fun result other matched => ?_
  obtain ⟨value, other, rfl, rfl, holds⟩ | ⟨cause, rfl, rfl⟩ := matched.values_or_stop
  · exact holds
  · rfl

/-- A checked computation is the same for a record and for its handle. -/
theorem checked (computation : Checked m α) :
    Mirrors RawStop.stop (· = ·) (RawHandle.checked computation)
      (LiveHandle.checked computation) :=
  named computation fun _ => rfl

/-- And it is as it is on its own. -/
theorem unchecked (computation : Checked m α) :
    Mirrors RawStop.fault (· = ·) (RawHandle.checked computation) computation := by
  have named (result other : Except Fault α) (same : result = other) :
      Matches RawStop.fault (· = ·) (result.mapError RawStop.fault) (id other) := by
    subst same
    cases result <;> rfl
  have same := (coupling m).map (Coupled.refl computation.run) named
  rwa [id_map] at same

end Mirrors

namespace LiveHandle

/-- The record has the mode of the handle. -/
@[simp] theorem raw_mode (handle : LiveHandle m) : handle.raw.mode = handle.mode := rfl

/-- It says of the key what the handle says. -/
@[simp] theorem raw_keyed (handle : LiveHandle m) : handle.raw.keyed = handle.keyed := rfl

/-- It has the options. -/
@[simp] theorem raw_flags (handle : LiveHandle m) : handle.raw.flags = handle.flags := rfl

/-- It carries as much. -/
@[simp] theorem raw_carry (handle : LiveHandle m) : handle.raw.carry = handle.carry := rfl

/-- It has the memory, which is there. -/
@[simp] theorem raw_arena (handle : LiveHandle m) : handle.raw.arena = some handle.arena := rfl

/-- It keeps the primitive that the pin leads to. -/
@[simp] theorem raw_primitive (handle : LiveHandle m) :
    handle.raw.primitive = handle.primitive := rfl

/-- And it keeps the length of a block. -/
@[simp] theorem raw_blockLength (handle : LiveHandle m) :
    handle.raw.blockLength = handle.blockLength := rfl

/-- So it yields a MAC where the handle does. -/
@[simp] theorem raw_mac (handle : LiveHandle m) : handle.raw.mac = handle.mac := rfl

/-- It needs as much output. -/
@[simp] theorem raw_requiredOutput (handle : LiveHandle m) :
    handle.raw.requiredOutput = handle.requiredOutput := rfl

/-- And it wants the same inputs aligned. -/
@[simp] theorem raw_mustAlign (handle : LiveHandle m) :
    handle.raw.mustAlign = handle.mustAlign := rfl

/-- A live handle may be used. -/
@[simp] theorem isLive_raw (handle : LiveHandle m) : handle.raw.isLive = true := by
  rw [RawHandle.isLive, raw]
  cases handle.flags.secure <;> rfl

end LiveHandle

namespace RawHandle

/-- A call that is refused gives its buffer back, spoiled as it is by then. -/
theorem refused_call {request : Request} {call : MessageCall} (asked : request.call? = some call)
    (cause : Refusal) (touched : Option Bytes) :
    refused cause touched request =
      .wrote (.error cause) (call.direction.spoil (touched.getD call.buffer)) := by
  cases request with
  | encrypt | decrypt | encryptInPlace | decryptInPlace =>
    cases asked
    rfl
  | _ => cases asked

/-- A setting that is refused has no buffer. -/
theorem refused_silent {request : Request} (silent : request.call? = none) (cause : Refusal)
    (touched : Option Bytes) : refused cause touched request = .done (.error cause) := by
  cases request with
  | encrypt | decrypt | encryptInPlace | decryptInPlace => cases silent
  | _ => rfl

end RawHandle

namespace LiveHandle

variable [Monad m] [LawfulMonad m]

/-- Its record passes the look at the tag. -/
theorem requireLive_raw_bind (handle : LiveHandle m) (next : Unit → RawHandle.Attempt m α) :
    handle.raw.requireLive >>= next = next () := by
  rw [RawHandle.requireLive, if_pos handle.isLive_raw, pure_bind]

/-- Its memory is there. -/
theorem requireArena_raw_bind (handle : LiveHandle m) (logged : List Event)
    (next : Arena → RawHandle.Attempt m α) :
    handle.raw.requireArena logged >>= next = next handle.arena :=
  pure_bind _ _

/-- The key is asked for. -/
theorem requireKey_mirrors (handle : LiveHandle m) :
    Mirrors RawStop.stop (· = ·) handle.raw.requireKey handle.requireKey := by
  rw [RawHandle.requireKey, requireKey, raw_keyed]
  split
  · exact Mirrors.pure rfl
  · exact Mirrors.throw _ _

/-- Buffers are refused alike. -/
theorem requireFit_mirrors (handle : LiveHandle m) (direction : Direction)
    (inputLength outputLength : Nat) :
    Mirrors RawStop.stop (· = ·) (handle.raw.requireFit direction inputLength outputLength)
      (handle.requireFit direction inputLength outputLength) := by
  rw [RawHandle.requireFit, requireFit, raw_requiredOutput, raw_mustAlign]
  split
  · exact Mirrors.throw _ _
  · split
    · refine Mirrors.bind_same (Mirrors.checked _) fun rest => ?_
      split
      · exact Mirrors.pure rfl
      · exact Mirrors.throw _ _
    · exact Mirrors.pure rfl

/-- The cipher is looked for before the memory, and the memory is there. -/
theorem cipher_mirrors (handle : LiveHandle m) :
    Mirrors RawStop.stop (fun found cipher => found = (cipher, handle.arena)) handle.raw.cipher
      handle.cipher := by
  rw [RawHandle.cipher, cipher, raw_primitive]
  cases handle.primitive.block with
  | none => exact Mirrors.throw _ _
  | some block =>
    simp only [requireArena_raw_bind]
    exact Mirrors.pure rfl

/-- A mode with a state runs on the state in the memory. -/
theorem chained_mirrors (handle : LiveHandle m)
    (computation : KeyedCipher m → Chain → Checked m (Chain × Bytes)) :
    Mirrors RawStop.stop Written (handle.raw.chained computation) (do
      let cipher ← handle.cipher
      let (chain, output) ← checked (computation cipher handle.chain)
      pure (handle.withChain chain, output)) := by
  apply Mirrors.bind handle.cipher_mirrors
  rintro _ cipher rfl
  refine Mirrors.bind_same (Mirrors.checked _) fun result => ?_
  exact Mirrors.pure rfl

/-- The stream transform keeps its place in the memory. -/
theorem transformStream_mirrors (handle : LiveHandle m) (direction : Direction) (buffer : Bytes) :
    Mirrors RawStop.stop Written (handle.raw.transformStream direction buffer)
      (handle.transformStream direction buffer) := by
  rw [RawHandle.transformStream, transformStream, raw_primitive]
  cases handle.primitive.stream with
  | none => exact Mirrors.throw _ _
  | some stream =>
    simp only [requireArena_raw_bind]
    refine Mirrors.bind_same (Mirrors.lift _) fun result => ?_
    exact Mirrors.pure rfl

/-- Every mode does the same on a record. -/
theorem transform_mirrors (handle : LiveHandle m) (direction : Direction) (buffer : Bytes) :
    Mirrors RawStop.stop Written (handle.raw.transform direction buffer)
      (handle.transform direction buffer) := by
  rw [RawHandle.transform, transform, raw_mode]
  cases handle.mode with
  | none => exact Mirrors.pure rfl
  | stream => exact handle.transformStream_mirrors direction buffer
  | ecb =>
    apply Mirrors.bind handle.cipher_mirrors
    rintro _ cipher rfl
    refine Mirrors.bind_same (Mirrors.checked _) fun output => ?_
    exact Mirrors.pure rfl
  | cbc => cases direction <;> exact handle.chained_mirrors _
  | cfb => exact handle.chained_mirrors _
  | ofb => exact handle.chained_mirrors _
  | ctr => exact handle.chained_mirrors _

/-- A MAC is written alike. -/
theorem tagInto_mirrors (handle : LiveHandle m) (input output : Bytes) :
    Mirrors RawStop.stop Written (handle.raw.tagInto input output)
      (handle.tagInto input output) := by
  apply Mirrors.bind handle.cipher_mirrors
  rintro _ cipher rfl
  apply Mirrors.bind_same (Mirrors.checked _)
  rintro ⟨chain, written⟩
  cases written with
  | false => exact Mirrors.pure rfl
  | true =>
    refine Mirrors.bind_same (Mirrors.checked _) fun pieces => ?_
    refine Mirrors.bind_same (Mirrors.checked _) fun tag => ?_
    exact Mirrors.pure rfl

/-- An input is copied and transformed alike. -/
theorem transformInto_mirrors (handle : LiveHandle m) (direction : Direction)
    (input output : Bytes) :
    Mirrors RawStop.stop Written (handle.raw.transformInto direction input output)
      (handle.transformInto direction input output) := by
  apply Mirrors.bind_same (Mirrors.checked _)
  rintro ⟨front, rest⟩
  apply Mirrors.bind ((handle.transform_mirrors direction input).after (input ++ rest))
  rintro _ result rfl
  exact Mirrors.pure rfl

/-- What follows the judgement of a call on a live handle follows it on the record. -/
theorem judged_mirrors (handle : LiveHandle m) (direction : Direction)
    (inputLength outputLength : Nat) {raw : RawHandle.Attempt m (RawHandle m × Bytes)}
    {live : Attempt m (LiveHandle m × Bytes)} (mirrors : Mirrors RawStop.stop Written raw live) :
    Mirrors RawStop.stop Written
      (do
        handle.raw.requireLive
        handle.raw.requireKey
        handle.raw.requireFit direction inputLength outputLength
        raw)
      (do
        handle.requireKey
        handle.requireFit direction inputLength outputLength
        live) := by
  rw [requireLive_raw_bind]
  refine Mirrors.bind_same handle.requireKey_mirrors fun _ => ?_
  exact Mirrors.bind_same (handle.requireFit_mirrors direction inputLength outputLength)
    fun _ => mirrors

/-- A call to a record is concluded as the call to its handle is. -/
theorem message_shown (handle : LiveHandle m) {request : Request} {call : MessageCall}
    (asked : request.call? = some call) {raw : RawHandle.Attempt m (RawHandle m × Bytes)}
    {live : Attempt m (LiveHandle m × Bytes)} (mirrors : Mirrors RawStop.stop Written raw live) :
    Coupled ShownLive
      (do
        let result ← (RawHandle.wrote raw).run
        pure (handle.raw.ended request result))
      (do
        let result ← live.run
        pure (handle.concluded call.direction call.buffer result)) := by
  have replied : Mirrors RawStop.stop
      (fun result other => result = (other.1.raw, .wrote (.ok ()) other.2, []))
      (RawHandle.wrote raw) live := by
    rw [← bind_pure live]
    apply Mirrors.bind mirrors
    rintro _ result rfl
    exact Mirrors.pure rfl
  apply Coupled.bind replied
  intro result other matched
  obtain ⟨_, value, rfl, rfl, rfl⟩ | ⟨cause, rfl, rfl⟩ := matched.values_or_stop
  · exact Coupled.pure ⟨⟨_, rfl, rfl⟩, rfl, rfl, nofun⟩
  · refine Coupled.pure ?_
    cases cause with
    | refused cause =>
      have said := RawHandle.refused_call asked cause none
      exact ⟨⟨_, rfl, rfl⟩, congrArg Except.ok said, rfl, nofun⟩
    | late cause touched =>
      have said := RawHandle.refused_call asked cause (some touched)
      exact ⟨⟨_, rfl, rfl⟩, congrArg Except.ok said, rfl, nofun⟩
    | fault cause => exact ⟨⟨_, rfl, rfl⟩, rfl, rfl, nofun⟩

/-- A setting of a record is answered as the setting of its handle is. -/
theorem setting_shown (handle : LiveHandle m) (request : Request)
    {raw : RawHandle.Attempt m (RawHandle m × Reply × List Event)}
    {live : Checked m (LiveHandle m × Except Refusal Unit × List Event)}
    (mirrors : Mirrors RawStop.fault Fulfilled raw live) :
    Coupled ShownLive
      (do
        let result ← raw.run
        pure (handle.raw.ended request result))
      (handle.fulfil live) := by
  apply Coupled.bind mirrors
  intro result other matched
  obtain ⟨_, value, rfl, rfl, rfl⟩ | ⟨cause, rfl, rfl⟩ := matched.values_or_stop <;>
    exact Coupled.pure ⟨⟨_, rfl, rfl⟩, rfl, rfl, nofun⟩

/-- A setting that is refused leaves the record as it was, and the handle. -/
theorem refusal_shown (handle : LiveHandle m) (request : Request) (silent : request.call? = none)
    (cause : Refusal) :
    Coupled ShownLive
      (do
        let result ← (RawHandle.refuse cause :
          RawHandle.Attempt m (RawHandle m × Reply × List Event)).run
        pure (handle.raw.ended request result))
      (pure (handle.answered (.done (.error cause)) [])) := by
  change Coupled ShownLive (pure _ >>= _) _
  rw [pure_bind]
  have said := RawHandle.refused_silent silent cause none
  exact Coupled.pure ⟨⟨_, rfl, rfl⟩, congrArg Except.ok said, rfl, nofun⟩

/-- What a record shows is what the handle shows. -/
theorem tell_shown (handle : LiveHandle m) (request : Request) (reply : Reply) :
    Coupled ShownLive
      (do
        let result ← (handle.raw.tell reply).run
        pure (handle.raw.ended request result))
      (pure (handle.answered reply [])) := by
  rw [RawHandle.tell, requireLive_raw_bind]
  change Coupled ShownLive (pure _ >>= _) _
  rw [pure_bind]
  exact Coupled.pure ⟨⟨_, rfl, rfl⟩, rfl, rfl, nofun⟩

/-- A key is given to the primitive alike, and its context is kept alike. -/
theorem setKey_mirrors (handle : LiveHandle m) (key : Bytes) :
    Mirrors RawStop.fault Fulfilled (handle.raw.setKey key) (handle.setKey key) := by
  rw [RawHandle.setKey, setKey, requireLive_raw_bind, requireArena_raw_bind]
  refine Mirrors.bind_same (Mirrors.lift _) fun keying => ?_
  cases keying.verdict with
  | ok =>
    refine Mirrors.bind_same (Mirrors.unchecked _) fun arena => ?_
    exact Mirrors.pure rfl
  | error cause => exact Mirrors.pure rfl

/-- A chaining value is written into the memory alike. -/
theorem setIv_shown (handle : LiveHandle m) (iv : Bytes) :
    Coupled ShownLive (handle.raw.respond (.setIv iv)) (handle.respond (.setIv iv)) := by
  apply handle.setting_shown
  rw [RawHandle.attempt, RawHandle.setIv, requireLive_raw_bind, requireArena_raw_bind, setIv,
    bind_assoc]
  refine Mirrors.bind_same (Mirrors.unchecked _) fun arena => ?_
  rw [pure_bind]
  exact Mirrors.pure rfl

/-- A counter is judged alike, and written into the memory alike. -/
theorem setCounter_shown (handle : LiveHandle m) (counter : Option Bytes) :
    Coupled ShownLive (handle.raw.respond (.setCounter counter))
      (handle.respond (.setCounter counter)) := by
  rw [RawHandle.respond, RawHandle.attempt, RawHandle.setCounter, requireLive_raw_bind,
    requireArena_raw_bind, respond]
  have cleared : Mirrors RawStop.fault Fulfilled
      (pure ({ handle.raw with arena := some (handle.arena.clear .counter) }, .done (.ok ()), []) :
        RawHandle.Attempt m (RawHandle m × Reply × List Event))
      (pure ({ handle with arena := handle.arena.clear .counter }, .ok (), []) :
        Checked m (LiveHandle m × Except Refusal Unit × List Event)) :=
    Mirrors.pure rfl
  cases counter with
  | none =>
    rw [RawHandle.putCounter, pure_bind, setCounter, pure_bind]
    exact handle.setting_shown _ cleared
  | some block =>
    rw [RawHandle.putCounter, raw_blockLength, setCounter]
    split
    · apply handle.setting_shown
      rw [bind_assoc]
      refine Mirrors.bind_same (Mirrors.unchecked _) fun arena => ?_
      rw [pure_bind]
      exact Mirrors.pure rfl
    · split
      · rw [pure_bind, pure_bind]
        exact handle.setting_shown _ cleared
      · rw [RawHandle.refuse, throw_bind, pure_bind, fulfil_pure]
        exact handle.refusal_shown (.setCounter (some block)) rfl _

/-- A reset brings the template back alike, if there is a key to reset to. -/
theorem reset_shown (handle : LiveHandle m) :
    Coupled ShownLive (handle.raw.respond .reset) (handle.respond .reset) := by
  rw [RawHandle.respond, RawHandle.attempt, RawHandle.reset, requireLive_raw_bind,
    RawHandle.requireKey, raw_keyed, respond, reset]
  split
  · rw [pure_bind, requireArena_raw_bind]
    apply handle.setting_shown
    rw [bind_assoc]
    refine Mirrors.bind_same (Mirrors.unchecked _) fun arena => ?_
    rw [pure_bind]
    exact Mirrors.pure rfl
  · rw [RawHandle.refuse, throw_bind, pure_bind, fulfil_pure]
    exact handle.refusal_shown .reset rfl _

/-- A realignment does the same to the memory, which is there. -/
theorem syncFeedback_shown (handle : LiveHandle m) :
    Coupled ShownLive (handle.raw.respond .syncFeedback) (handle.respond .syncFeedback) := by
  apply handle.setting_shown
  rw [RawHandle.attempt, RawHandle.syncFeedback, requireLive_raw_bind, syncFeedback, raw_flags,
    raw_carry, raw_arena]
  split
  · rw [bind_assoc]
    refine Mirrors.bind_same (Mirrors.unchecked _) fun chain => ?_
    rw [pure_bind]
    exact Mirrors.pure rfl
  · rw [pure_bind]
    exact Mirrors.pure rfl

/-- An option is switched alike, if the switch leaves the kind of memory. -/
theorem switch_shown (handle : LiveHandle m) (request : Request) (silent : request.call? = none)
    {enable excluded : Bool} {change : Flags.Change} {after : LiveHandle m × Except Refusal Unit}
    (switched : after = if enable && excluded then
        (handle, .error (.configuration .conflictingOptions))
      else ({ handle with flags := handle.flags.change change }, .ok ()))
    (keeps : (handle.flags.change change).secure = handle.flags.secure) :
    Coupled ShownLive
      (do
        let result ← (handle.raw.switch enable excluded change).run
        pure (handle.raw.ended request result))
      (pure (after.1.answered (.done after.2) [])) := by
  subst switched
  rw [RawHandle.switch, requireLive_raw_bind]
  split
  · exact handle.refusal_shown request silent _
  · have same : LiveHandle.raw { handle with flags := handle.flags.change change } =
        { handle.raw with flags := handle.flags.change change } := by
      simp only [raw, keeps]
      rfl
    change Coupled ShownLive (pure _ >>= _) _
    rw [pure_bind]
    exact Coupled.pure ⟨⟨_, same.symm, rfl⟩, rfl, rfl, nofun⟩

/-- Whatever is asked of a live handle, its record does the same. -/
theorem respond_shown (handle : LiveHandle m) (request : Request) :
    Coupled ShownLive (handle.raw.respond request) (handle.respond request) := by
  cases request with
  | setKey key => exact handle.setting_shown _ (handle.setKey_mirrors key)
  | setIv iv => exact handle.setIv_shown iv
  | setCounter counter => exact handle.setCounter_shown counter
  | syncFeedback => exact handle.syncFeedback_shown
  | setStealing enable => exact handle.switch_shown (.setStealing enable) rfl rfl rfl
  | setMac enable => exact handle.switch_shown (.setMac enable) rfl rfl rfl
  | reset => exact handle.reset_shown
  | encrypt input output =>
    have asked : (Request.encrypt input output).call? = some ⟨.encrypt, input, output⟩ := rfl
    refine handle.message_shown asked (handle.judged_mirrors _ _ _ ?_)
    rw [raw_mac]
    split
    · exact handle.tagInto_mirrors input output
    · exact handle.transformInto_mirrors .encrypt input output
  | decrypt input output =>
    have asked : (Request.decrypt input output).call? = some ⟨.decrypt, input, output⟩ := rfl
    exact handle.message_shown asked
      (handle.judged_mirrors _ _ _ (handle.transformInto_mirrors .decrypt input output))
  | encryptInPlace buffer =>
    have asked : (Request.encryptInPlace buffer).call? = some ⟨.encrypt, buffer, buffer⟩ := rfl
    refine handle.message_shown asked (handle.judged_mirrors _ _ _ ?_)
    rw [raw_mac]
    split
    · exact handle.tagInto_mirrors buffer buffer
    · exact handle.transform_mirrors .encrypt buffer
  | decryptInPlace buffer =>
    have asked : (Request.decryptInPlace buffer).call? = some ⟨.decrypt, buffer, buffer⟩ := rfl
    exact handle.message_shown asked
      (handle.judged_mirrors _ _ _ (handle.transform_mirrors .decrypt buffer))
  | algorithm => exact handle.tell_shown _ _
  | mode => exact handle.tell_shown _ _
  | flags => exact handle.tell_shown _ _
  | blockLength => exact handle.tell_shown _ _
  | isKeyed => exact handle.tell_shown _ _
  | isSecure =>
    have said : Reply.truth (handle.raw.tag = secureTag) = .truth handle.flags.secure := by
      rw [raw]
      cases handle.flags.secure <;> rfl
    rw [RawHandle.respond, RawHandle.attempt, said]
    exact handle.tell_shown _ _

end LiveHandle

namespace RawHandle

/-- A record that is emptied may not be used. -/
theorem Emptied.dead {raw : RawHandle m} (emptied : raw.Emptied) : raw.isLive = false := by
  rw [isLive, emptied.tag]
  rfl

variable [Monad m] [LawfulMonad m]

/-- Nothing is done with a handle that may not be used, whatever else its record holds. -/
theorem requireLive_dead_bind {raw : RawHandle m} (dead : raw.isLive = false)
    (next : Unit → Attempt m α) : raw.requireLive >>= next = throw (.gone []) := by
  rw [requireLive, dead, if_neg Bool.false_ne_true, throw_bind]

/-- So every request looks at the tag before anything else. -/
theorem attempt_dead {raw : RawHandle m} (dead : raw.isLive = false) (request : Request) :
    raw.attempt request = throw (.gone []) := by
  cases request with
  | encrypt | decrypt | encryptInPlace | decryptInPlace =>
    simp only [attempt, wrote, encrypt, decrypt, encryptInPlace, decryptInPlace,
      requireLive_dead_bind dead, throw_bind]
  | setKey | setIv | setCounter | syncFeedback | setStealing | setMac | reset | algorithm | mode
  | flags | blockLength | isKeyed | isSecure => exact requireLive_dead_bind dead _

/-- And every request to a handle that may not be used ends the program. -/
theorem respond_dead {raw : RawHandle m} (dead : raw.isLive = false) (request : Request) :
    raw.respond request =
      pure ⟨raw, .error (.fatal .closedHandle), [.fatal .closedHandle]⟩ := by
  rw [respond, attempt_dead dead]
  exact pure_bind _ _

end RawHandle

variable [Monad m] [LawfulMonad m]

/-- A live handle never finds its memory gone, and no request to it ends the program but by a step
out of its domain. -/
theorem LiveHandle.respond_raw_calm (handle : LiveHandle m) (request : Request) :
    Ensures (handle.raw.respond request) fun outcome =>
      ∀ cause, outcome.reply ≠ .error (.fatal cause) :=
  (handle.respond_shown request).ensures.mono fun _ ⟨_, shown⟩ => shown.calm

/-- Whatever is asked of a handle, its record does the same, and what is left is the record of
what is left. -/
theorem Records.respond {raw : RawHandle m} {handle : Handle m} (records : Records raw handle)
    (request : Request) : Coupled Shown (raw.respond request) (handle.respond request) := by
  cases records with
  | live handle =>
    refine handle.respond_shown request |>.mono fun raw outcome shown => ?_
    obtain ⟨⟨next, recorded, left⟩, reply, events, _⟩ := shown
    refine ⟨?_, reply, events⟩
    rw [recorded, left]
    exact Records.live next
  | closed emptied =>
    rw [RawHandle.respond_dead emptied.dead]
    exact Coupled.pure ⟨Records.closed emptied, rfl, rfl⟩

end CipherEngine
