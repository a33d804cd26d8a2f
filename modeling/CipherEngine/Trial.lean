import CipherEngine.Primitive

/-!
# Trials of a primitive

A primitive can be tried without a handle, on a context of its own that goes
from call to call. A call to a capability that the primitive lacks is
unsupported and changes nothing.
-/
namespace CipherEngine

/-- The bulk routines of a primitive. -/
inductive BulkJob where
  | cbcEncrypt
  | cbcDecrypt
  | cfbEncrypt
  | cfbDecrypt
  | cbcMac
deriving DecidableEq

/-- A call to a primitive. -/
inductive Trial where
  | setKey (key : Bytes)
  | block (direction : Direction) (data : Bytes)
  | stream (direction : Direction) (data : Bytes)
  | bulk (routine : BulkJob) (iv data : Bytes)
deriving DecidableEq

/-- What a call gives back. -/
inductive Finding where
  | unsupported
  | keyed (verdict : Except KeyRefusal Unit) (context : Bytes)
  | block (data : Bytes)
  | stream (data context : Bytes)
  | bulk (data iv : Bytes)

variable {m : Type → Type} [Monad m]

/-- Runs a bulk routine. Returns the chaining value and the buffer. -/
def BulkRoutines.run (bulk : BulkRoutines m) (routine : BulkJob)
    (context iv data : Bytes) : m (Bytes × Bytes) :=
  match routine with
  | .cbcEncrypt => bulk.cbcEncrypt context iv data
  | .cbcDecrypt => bulk.cbcDecrypt context iv data
  | .cfbEncrypt => bulk.cfbEncrypt context iv data
  | .cfbDecrypt => bulk.cfbDecrypt context iv data
  | .cbcMac => do
    let iv ← bulk.cbcMac context iv data
    pure (iv, data)

namespace Primitive

/-- Makes a call. Returns the finding and the context after it. -/
def attempt (primitive : Primitive m) (context : Bytes) : Trial → m (Finding × Bytes)
  | .setKey key => do
    let keying ← primitive.setKey context key
    pure (.keyed keying.verdict keying.context, keying.context)
  | .block direction data =>
    match primitive.block with
    | none => pure (.unsupported, context)
    | some block => do
      let output ← match direction with
        | .encrypt => block.encrypt context data
        | .decrypt => block.decrypt context data
      pure (.block output, context)
  | .stream direction data =>
    match primitive.stream with
    | none => pure (.unsupported, context)
    | some stream => do
      let (after, output) ← match direction with
        | .encrypt => stream.encrypt context data
        | .decrypt => stream.decrypt context data
      pure (.stream output after, after)
  | .bulk routine iv data =>
    match primitive.bulk with
    | none => pure (.unsupported, context)
    | some bulk => do
      let (iv, output) ← bulk.run routine context iv data
      pure (.bulk output iv, context)

/-- Makes calls in order, each on the context that the one before left. -/
def attemptAll (primitive : Primitive m) : (context : Bytes) → List Trial → m (List Finding)
  | _, [] => pure []
  | context, trial :: rest => do
    let (finding, after) ← primitive.attempt context trial
    let others ← primitive.attemptAll after rest
    pure (finding :: others)

end Primitive

end CipherEngine
