import CipherEngine.Proofs.Handle.Representation

/-!
# What a handle discloses

A request is made blank by writing zeros over every key, chaining value, counter and message
in it, so that only their lengths are left. Of a handle is left what it works with: the pin, the
mode, the options, and whether it has a key.

What is answered to a request and what is logged of it follows from the blank request and the
blank handle, but for two things. The primitive takes a key or refuses it, and only the bytes of
the key may tell which; and the bytes of an output are those of the primitive. So this is all
that a handle discloses.
-/
namespace CipherEngine

variable {m : Type → Type}

/-- As many zeros as there are bytes. -/
def Bytes.blank (bytes : Bytes) : Bytes := zeros bytes.length

/-- Blanked bytes are as many as before. -/
@[simp] theorem Bytes.length_blank (bytes : Bytes) : bytes.blank.length = bytes.length :=
  length_zeros _

/-- Blank bytes tell their length and nothing else. -/
theorem Bytes.blank_eq_iff {bytes other : Bytes} :
    bytes.blank = other.blank ↔ bytes.length = other.length := by
  refine ⟨fun same => ?_, congrArg zeros⟩
  rw [← length_blank bytes, same, length_blank]

/-- The request without its bytes. -/
def Request.blank : Request → Request
  | .setKey key => .setKey key.blank
  | .setIv iv => .setIv iv.blank
  | .setCounter counter => .setCounter (counter.map Bytes.blank)
  | .encrypt input output => .encrypt input.blank output.blank
  | .decrypt input output => .decrypt input.blank output.blank
  | .encryptInPlace buffer => .encryptInPlace buffer.blank
  | .decryptInPlace buffer => .decryptInPlace buffer.blank
  | .syncFeedback => .syncFeedback
  | .setStealing enable => .setStealing enable
  | .setMac enable => .setMac enable
  | .reset => .reset
  | .algorithm => .algorithm
  | .mode => .mode
  | .flags => .flags
  | .blockLength => .blockLength
  | .isKeyed => .isKeyed
  | .isSecure => .isSecure

/-- The message call without its bytes. -/
def MessageCall.blank (call : MessageCall) : MessageCall :=
  ⟨call.direction, call.input.blank, call.buffer.blank⟩

/-- The request gives a key. -/
def Request.givesKey (request : Request) : Bool := request.key?.isSome

/-- The reply without the bytes of an output. -/
def Reply.blank : Reply → Reply
  | .wrote result output => .wrote result output.blank
  | reply => reply

/-- The arena of a layout with nothing in it. -/
def Arena.zeroed (layout : Layout) : Arena :=
  ⟨layout, .standard, Bytes.zeros layout.total.toNat, Nat.le_of_eq (Bytes.length_zeros _).symm⟩

/-- The handle without its bytes, and without a place in a block. -/
def LiveHandle.blank (handle : LiveHandle m) : LiveHandle m :=
  { handle with arena := .zeroed handle.arena.layout, carry := 0 }

/-- A closed handle has no bytes. -/
def Handle.blank : Handle m → Handle m
  | .live handle => .live handle.blank
  | .closed id mode flags => .closed id mode flags

/-- The outcome without bytes. -/
def Outcome.blank (outcome : Outcome m) : Outcome m where
  handle := outcome.handle.blank
  reply := outcome.reply.map Reply.blank
  events := outcome.events

/-- A blank request makes the call without its bytes. -/
theorem Request.call?_blank (request : Request) :
    request.blank.call? = request.call?.map MessageCall.blank := by
  cases request <;> rfl

/-- Blanking a request does not turn it into one that gives a key, or back. -/
theorem Request.givesKey_blank (request : Request) :
    request.blank.givesKey = request.givesKey := by
  cases request <;> rfl

/-- A refused call leaves as many bytes as it found. -/
theorem MessageCall.blank_spoiled (call : MessageCall) :
    Bytes.blank call.spoiled = call.buffer.blank := by
  rw [Bytes.blank_eq_iff, spoiled]
  cases call.direction with
  | encrypt => exact List.length_replicate
  | decrypt => rfl

namespace LiveHandle

/-- What the verdict on a key leaves of a handle, what is answered, and what is logged. -/
def judged (handle : LiveHandle m) : Except KeyRefusal Unit → Outcome m
  | .ok () => answered { handle with keyed := true } (.done (.ok ())) []
  | .error cause =>
    answered { handle with keyed := false } (.done (.error cause.toRefusal))
      [.keyRefused handle.pin.id cause]

/-- What is disclosed of a request: of a message call nothing but whether it was accepted, and
for what it was refused. The verdict is that of the primitive on a key. -/
def discloses (handle : LiveHandle m) (verdict : Except KeyRefusal Unit) (request : Request) :
    Outcome m :=
  match request.call? with
  | some call => handle.answered (.wrote (handle.verdict call) call.buffer) []
  | none =>
    match request with
    | .setKey _ => handle.judged verdict
    | .setIv iv => handle.answered (.done (.ok ())) (handle.ivEvents iv)
    | .setCounter counter => handle.answered (.done (handle.afterCounter counter).2) []
    | .setStealing enable =>
      (handle.setStealing enable).1.answered (.done (handle.setStealing enable).2) []
    | .setMac enable => (handle.setMac enable).1.answered (.done (handle.setMac enable).2) []
    | .reset => handle.answered (.done handle.afterReset.2) []
    | .algorithm => handle.answered (.algorithm handle.pin.id) []
    | .mode => handle.answered (.mode handle.mode) []
    | .flags => handle.answered (.flags handle.flags) []
    | .blockLength => handle.answered (.size handle.blockLength) []
    | .isKeyed => handle.answered (.truth handle.keyed) []
    | .isSecure => handle.answered (.truth handle.flags.secure) []
    | _ => handle.answered (.done (.ok ())) []

/-- Without a key in the request, there is no verdict to speak of. -/
theorem discloses_of_keyless (handle : LiveHandle m) (verdict other : Except KeyRefusal Unit)
    {request : Request} (keyless : request.givesKey = false) :
    handle.discloses verdict request = handle.discloses other request := by
  cases request with
  | setKey key => cases keyless
  | _ => rfl

/-- Every request for a message call discloses the verdict on the call. -/
theorem discloses_call (handle : LiveHandle m) (verdict : Except KeyRefusal Unit)
    {request : Request} {call : MessageCall} (asked : request.call? = some call) :
    handle.discloses verdict request =
      handle.answered (.wrote (handle.verdict call) call.buffer) [] := by
  cases request with
  | encrypt | decrypt | encryptInPlace | decryptInPlace =>
    cases asked
    rfl
  | _ => cases asked

/-- What has changed in its bytes at most is the same handle without them. -/
theorem SameShape.blank {handle next : LiveHandle m} (shape : handle.SameShape next)
    (flags : next.flags = handle.flags) (keyed : next.keyed = handle.keyed) :
    next.blank = handle.blank := by
  rw [LiveHandle.blank, LiveHandle.blank, shape.layout]
  cases handle
  cases next
  cases shape.pin
  cases shape.mode
  cases flags
  cases keyed
  rfl

/-- A call is judged by lengths. -/
theorem verdict_blank (handle : LiveHandle m) (call : MessageCall) :
    handle.blank.verdict call.blank = handle.verdict call := by
  simp only [verdict, needed, NeedsBlocks, MessageCall.blank, Bytes.length_blank]
  rfl

/-- A chaining value is found too short or too long by its length. -/
theorem ivEvents_blank (handle : LiveHandle m) (iv : Bytes) :
    handle.blank.ivEvents iv.blank = handle.ivEvents iv := by
  simp only [ivEvents, Bytes.length_blank]
  rfl

/-- And so is a counter refused. -/
theorem afterCounter_blank (handle : LiveHandle m) (counter : Option Bytes) :
    (handle.blank.afterCounter (counter.map Bytes.blank)).2 = (handle.afterCounter counter).2 := by
  cases counter with
  | none => rfl
  | some block =>
    have empty : block.blank.isEmpty = block.isEmpty := by
      cases block <;> rfl
    simp only [Option.map_some, afterCounter, Bytes.length_blank, empty]
    change (ite (block.length = handle.blockLength) _ _ : LiveHandle m × _).2 = _
    split
    · rfl
    · split <;> rfl

/-- Whether there is something to reset is told by the key. -/
theorem afterReset_blank (handle : LiveHandle m) :
    handle.blank.afterReset.2 = handle.afterReset.2 := by
  change (if handle.keyed then _ else _ : LiveHandle m × Except Refusal Unit).2 = _
  rw [afterReset]
  split <;> rfl

/-- Stealing is switched among the options. -/
theorem setStealing_blank (handle : LiveHandle m) (enable : Bool) :
    handle.blank.setStealing enable =
      ((handle.setStealing enable).1.blank, (handle.setStealing enable).2) := by
  change (if enable && handle.flags.mac then _ else _) = _
  rw [setStealing]
  split <;> rfl

/-- And so is MAC output. -/
theorem setMac_blank (handle : LiveHandle m) (enable : Bool) :
    handle.blank.setMac enable = ((handle.setMac enable).1.blank, (handle.setMac enable).2) := by
  change (if enable && handle.flags.stealing then _ else _) = _
  rw [setMac]
  split <;> rfl

variable [Monad m] [LawfulMonad m]

/-- A key discloses the verdict on it. -/
theorem setKey_discloses (handle : LiveHandle m) (key : Bytes) :
    Ensures (handle.respond (.setKey key)) fun outcome =>
      ∃ verdict, outcome.blank = handle.blank.judged verdict := by
  rw [respond_setKey]
  refine Ensures.bind (Ensures.always _ fun _ => trivial) fun keying _ => ?_
  refine Ensures.pure ⟨keying.verdict, ?_⟩
  rw [afterKeying]
  cases keying.verdict <;> rfl

/-- A realignment changes bytes and the place in the block. -/
theorem syncFeedback_blank (handle : LiveHandle m) :
    Guards (handle.syncFeedback : Checked m (LiveHandle m)) fun after =>
      after.blank = handle.blank := by
  rw [syncFeedback]
  split
  · exact Guards.after _ fun chain => Guards.pure rfl
  · exact Guards.pure rfl

/-- The reply to a message call discloses the verdict on it, and the length of the buffer. -/
theorem call_discloses {handle : LiveHandle m} (fitted : handle.Fitted) (short : handle.Short)
    (keeps : handle.pin.algorithm.KeepsLengths) {request : Request} {call : MessageCall}
    (asked : request.call? = some call) :
    Ensures (handle.respond request) fun outcome =>
      outcome.blank =
        handle.blank.answered (.wrote (handle.verdict call) call.buffer.blank) [] := by
  cases judged : handle.verdict call with
  | error cause =>
    rw [respond_refusal asked (fitted.positive_of_mustAlign _) judged]
    refine Ensures.pure ?_
    rw [← MessageCall.blank_spoiled]
    rfl
  | ok =>
    have completed := perform_completes fitted keeps short (admits_of_verdict judged)
    have steady := perform_steady handle call
    rw [respond_call handle asked]
    refine Ensures.map (completed.and steady (handle, call.buffer)
      ⟨⟨short, rfl⟩, Steady.refl handle⟩) fun result ends => ?_
    obtain ⟨⟨next, written⟩, rfl, ⟨_, width⟩, kept⟩ := ends
    have same : next.blank = handle.blank := kept.toSameShape.blank kept.flags kept.keyed
    change (next.answered (.wrote (.ok ()) written) []).blank = _
    rw [← same, ← Bytes.blank_eq_iff.mpr width]
    rfl

/-- Whatever is asked of a handle, the outcome follows from lengths, and from the verdict on a
key. -/
theorem respond_discloses {handle : LiveHandle m} (fitted : handle.Fitted) (sound : handle.Sound)
    (short : handle.Short) (keeps : handle.pin.algorithm.KeepsLengths) (request : Request) :
    Ensures (handle.respond request) fun outcome =>
      ∃ verdict, outcome.blank = handle.blank.discloses verdict request.blank := by
  -- Where no key is given, any verdict does.
  let verdict : Except KeyRefusal Unit := .ok ()
  have plain (reply : Reply) (events : List Event) :
      (handle.answered reply events).blank = handle.blank.answered reply.blank events := rfl
  cases asked : request.call? with
  | some call =>
    have blank : request.blank.call? = some call.blank := by
      rw [Request.call?_blank, asked]
      rfl
    refine (call_discloses fitted short keeps asked).mono fun outcome same => ⟨verdict, ?_⟩
    rw [same, discloses_call _ _ blank, verdict_blank]
    rfl
  | none =>
    cases request with
    | encrypt | decrypt | encryptInPlace | decryptInPlace => cases asked
    | setKey key => exact setKey_discloses handle key
    | setIv iv =>
      rw [fitted.respond_setIv]
      refine Ensures.pure ⟨verdict, ?_⟩
      change _ = handle.blank.answered _ (handle.blank.ivEvents iv.blank)
      rw [ivEvents_blank]
      rfl
    | setCounter counter =>
      rw [fitted.respond_setCounter]
      refine Ensures.pure ⟨verdict, ?_⟩
      have same : (handle.afterCounter counter).1.blank = handle.blank := by
        have steady := afterCounter_steady handle counter
        exact steady.toSameShape.blank steady.flags steady.keyed
      change _ = handle.blank.answered (.done (handle.blank.afterCounter _).2) []
      rw [afterCounter_blank, ← same]
      rfl
    | syncFeedback =>
      rw [respond_syncFeedback]
      refine Ensures.bind ((syncFeedback_completes fitted sound short).and
        (syncFeedback_blank handle) handle ⟨trivial, rfl⟩) fun result ends => ?_
      obtain ⟨after, rfl, _, same⟩ := ends
      refine Ensures.pure ⟨verdict, ?_⟩
      change (after.answered (.done (.ok ())) []).blank = handle.blank.answered _ _
      rw [← same]
      rfl
    | setStealing enable =>
      rw [respond_setStealing]
      refine Ensures.pure ⟨verdict, ?_⟩
      change _ = (handle.blank.setStealing enable).1.answered _ _
      rw [setStealing_blank]
      rfl
    | setMac enable =>
      rw [respond_setMac]
      refine Ensures.pure ⟨verdict, ?_⟩
      change _ = (handle.blank.setMac enable).1.answered _ _
      rw [setMac_blank]
      rfl
    | reset =>
      rw [respond_reset]
      refine Ensures.pure ⟨verdict, ?_⟩
      have same : handle.afterReset.1.blank = handle.blank := by
        refine (afterReset_sameShape handle).blank ?_ (afterReset_keeps handle).1.keyed
        rw [afterReset]
        split <;> rfl
      change _ = handle.blank.answered (.done handle.blank.afterReset.2) []
      rw [afterReset_blank, ← same]
      rfl
    | algorithm | mode | flags | blockLength | isKeyed | isSecure =>
      exact Ensures.pure ⟨verdict, plain _ _⟩

end LiveHandle

end CipherEngine
