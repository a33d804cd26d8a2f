import CipherEngine.Handle.Setup

/-!
# Requests to a handle

Everything that can be asked of a handle and does not concern the registry. A
request to a closed handle ends the program and changes nothing. A request to a
live handle has a reply, leaves a handle, and may be logged.
-/
namespace CipherEngine

/-- What may be asked of a handle. -/
inductive Request where
  | setKey (key : Bytes)
  | setIv (iv : Bytes)
  | setCounter (counter : Option Bytes)
  | syncFeedback
  | setStealing (enable : Bool)
  | setMac (enable : Bool)
  | reset
  | encrypt (input output : Bytes)
  | decrypt (input output : Bytes)
  | encryptInPlace (buffer : Bytes)
  | decryptInPlace (buffer : Bytes)
  | algorithm
  | mode
  | flags
  | blockLength
  | isKeyed
  | isSecure
deriving DecidableEq

/-- What a live handle replies. -/
inductive Reply where
  /-- A request without data was done or refused. -/
  | done (result : Except Refusal Unit)
  /-- The output buffer after the request, and whether it was refused. -/
  | wrote (result : Except Refusal Unit) (output : Bytes)
  | algorithm (id : AlgorithmId)
  | mode (mode : Mode)
  | flags (flags : Flags)
  | size (bytes : Nat)
  | truth (value : Bool)

/-- What a request leaves and says. -/
structure Outcome (m : Type → Type) where
  handle : Handle m
  reply : Except Halt Reply
  events : List Event := []

variable {m : Type → Type}

namespace LiveHandle

/-- A live handle after a request that cannot fail to be answered. -/
def answered (handle : LiveHandle m) (reply : Reply) (events : List Event) : Outcome m :=
  ⟨.live handle, .ok reply, events⟩

/-- A request that a step out of its domain has ended. -/
def faulted (handle : LiveHandle m) (cause : Fault) : Outcome m :=
  ⟨.live handle, .error (.fault cause), []⟩

/-- The outcome of a request without data. -/
def fulfilled (handle : LiveHandle m) :
    Except Fault (LiveHandle m × Except Refusal Unit × List Event) → Outcome m
  | .ok (after, result, events) => after.answered (.done result) events
  | .error cause => handle.faulted cause

/-- The outcome of a transform on an output. A refusal spoils what the output holds by then. -/
def concluded (handle : LiveHandle m) (direction : Direction) (output : Bytes) :
    Except Stop (LiveHandle m × Bytes) → Outcome m
  | .ok (after, written) => after.answered (.wrote (.ok ()) written) []
  | .error (.refused cause) =>
    handle.answered (.wrote (.error cause) (direction.spoil output)) []
  | .error (.late cause touched) =>
    handle.answered (.wrote (.error cause) (direction.spoil touched)) []
  | .error (.fault cause) => handle.faulted cause

variable [Monad m]

/-- Carries out a request without data. -/
def fulfil (handle : LiveHandle m)
    (request : Checked m (LiveHandle m × Except Refusal Unit × List Event)) : m (Outcome m) := do
  let result ← request.run
  pure (handle.fulfilled result)

/-- A request to a live handle. -/
def respond (handle : LiveHandle m) : Request → m (Outcome m)
  | .setKey key => handle.fulfil (handle.setKey key)
  | .setIv iv => handle.fulfil do
    let (after, events) ← handle.setIv iv
    pure (after, .ok (), events)
  | .setCounter counter => handle.fulfil do
    let (after, result) ← handle.setCounter counter
    pure (after, result, [])
  | .syncFeedback => handle.fulfil do
    let after ← handle.syncFeedback
    pure (after, .ok (), [])
  | .setStealing enable =>
    let (handle, result) := handle.setStealing enable
    pure (handle.answered (.done result) [])
  | .setMac enable =>
    let (handle, result) := handle.setMac enable
    pure (handle.answered (.done result) [])
  | .reset => handle.fulfil do
    let (after, result) ← handle.reset
    pure (after, result, [])
  | .encrypt input output => do
    let result ← (handle.encrypt input output).run
    pure (handle.concluded .encrypt output result)
  | .decrypt input output => do
    let result ← (handle.decrypt input output).run
    pure (handle.concluded .decrypt output result)
  | .encryptInPlace buffer => do
    let result ← (handle.encryptInPlace buffer).run
    pure (handle.concluded .encrypt buffer result)
  | .decryptInPlace buffer => do
    let result ← (handle.decryptInPlace buffer).run
    pure (handle.concluded .decrypt buffer result)
  | .algorithm => pure (handle.answered (.algorithm handle.pin.id) [])
  | .mode => pure (handle.answered (.mode handle.mode) [])
  | .flags => pure (handle.answered (.flags handle.flags) [])
  | .blockLength => pure (handle.answered (.size handle.blockLength) [])
  | .isKeyed => pure (handle.answered (.truth handle.keyed) [])
  | .isSecure => pure (handle.answered (.truth handle.flags.secure) [])

end LiveHandle

namespace Handle

variable [Monad m]

/-- A request to a handle. -/
def respond (handle : Handle m) (request : Request) : m (Outcome m) :=
  match handle with
  | .live handle => handle.respond request
  | .closed .. =>
    pure ⟨handle, .error (.fatal .closedHandle), [.fatal .closedHandle]⟩

/-- Requests in order, each to the handle that the one before left, up to the
first that ends the program. Returns what is left and every outcome. -/
def respondAll (handle : Handle m) : List Request → m (Handle m × List (Outcome m))
  | [] => pure (handle, [])
  | request :: rest => do
    let outcome ← handle.respond request
    match outcome.reply with
    | .error _ => pure (outcome.handle, [outcome])
    | .ok _ => do
      let (last, others) ← respondAll outcome.handle rest
      pure (last, outcome :: others)

end Handle

end CipherEngine
