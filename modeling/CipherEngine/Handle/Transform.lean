import CipherEngine.Chaining.BlockChaining
import CipherEngine.Chaining.CipherFeedback
import CipherEngine.Chaining.Codebook
import CipherEngine.Chaining.Counter
import CipherEngine.Chaining.OutputFeedback
import CipherEngine.Handle.Opening

/-!
# Transforming messages with a handle

A request is judged before anything is touched: the handle needs a key, the
output must be long enough, and a mode of whole blocks needs an aligned input.
Then the mode takes its state out of the arena, works on the buffer, and the
state goes back. A handle whose request is refused is as it was.

A failed encryption leaves nothing of the message behind: the whole output is
filled with one byte. A failed decryption leaves the output alone.
-/
namespace CipherEngine

/-- Why a request has no result: it is refused, before or after the output was written to, or a
step was out of its domain. -/
inductive Stop where
  | refused (cause : Refusal)
  /-- Refused when the output already held something else. -/
  | late (cause : Refusal) (output : Bytes)
  | fault (cause : Fault)
deriving DecidableEq

/-- A stop of what is done when the output is written to. -/
def Stop.after (output : Bytes) : Stop → Stop
  | .refused cause => .late cause output
  | stop => stop

/-- The byte that fills the output of a failed encryption. -/
def spoilByte : UInt8 := 0x42

/-- What a failure leaves of an output as it is by then. -/
def Direction.spoil (output : Bytes) : Direction → Bytes
  | .encrypt => List.replicate output.length spoilByte
  | .decrypt => output

variable {m : Type → Type} [Monad m]

namespace LiveHandle

/-- A request that may stop. -/
abbrev Attempt (m : Type → Type) (α : Type) := ExceptT Stop m α

/-- Ends a request with a refusal. -/
def refuse {α : Type} (cause : Refusal) : Attempt m α :=
  throw (.refused cause)

/-- A checked computation as part of a request. -/
def checked {α : Type} (computation : Checked m α) : Attempt m α :=
  ExceptT.adapt Stop.fault computation

/-- The state of the mode, out of the arena. -/
def chain (handle : LiveHandle m) : Chain where
  iv := handle.arena.read .iv
  previous := handle.arena.read .previous
  counter := handle.arena.read .counter
  scratch := handle.arena.read .scratch
  carry := handle.carry

/-- The state of the mode, back into the arena. -/
def withChain (handle : LiveHandle m) (chain : Chain) : LiveHandle m :=
  { handle with
    arena :=
      (((handle.arena.put .iv 0 chain.iv).put .previous 0 chain.previous).put
        .counter 0 chain.counter).put .scratch 0 chain.scratch
    carry := chain.carry }

/-- The block cipher under the handle's key. -/
def cipher (handle : LiveHandle m) : Attempt m (KeyedCipher m) :=
  match handle.primitive.block with
  | none => refuse (.configuration (.unsupportedMode handle.pin.id handle.mode))
  | some block =>
    pure { block, bulk := handle.primitive.bulk, context := handle.arena.read .live }

/-- Refuses a handle without a key. -/
def requireKey (handle : LiveHandle m) : Attempt m Unit :=
  if handle.keyed then pure () else refuse (.configuration .noKey)

/-- Bytes of output that a request needs. -/
def requiredOutput (handle : LiveHandle m) (direction : Direction) (inputLength : Nat) : Nat :=
  if direction = .encrypt && handle.mac then handle.blockLength else inputLength

/-- Whether an input must be a whole number of blocks. -/
def mustAlign (handle : LiveHandle m) (inputLength : Nat) : Bool :=
  match handle.mode with
  | .ecb => true
  | .cbc => !(handle.stealing && handle.blockLength < inputLength)
  | _ => false

/-- Refuses buffers that the handle cannot work on. -/
def requireFit (handle : LiveHandle m) (direction : Direction) (inputLength outputLength : Nat) :
    Attempt m Unit := do
  let required := handle.requiredOutput direction inputLength
  if outputLength < required then
    refuse (.argument (.shortOutput required outputLength))
  else if handle.mustAlign inputLength then do
    let rest ← checked (Checked.remainder inputLength handle.blockLength)
    if rest = 0 then pure ()
    else refuse (.argument (.misaligned inputLength handle.blockLength))
  else pure ()

/-- Runs the stream transform on a buffer, with its place kept in the context. -/
def transformStream (handle : LiveHandle m) (direction : Direction) (buffer : Bytes) :
    Attempt m (LiveHandle m × Bytes) :=
  match handle.primitive.stream with
  | none => refuse (.configuration (.unsupportedMode handle.pin.id handle.mode))
  | some stream => do
    let context := handle.arena.read .live
    let (context, output) ← ExceptT.lift (match direction with
      | .encrypt => stream.encrypt context buffer
      | .decrypt => stream.decrypt context buffer)
    pure ({ handle with arena := handle.arena.put .live 0 context }, output)

/-- Runs the mode on a buffer. -/
def transform (handle : LiveHandle m) (direction : Direction) (buffer : Bytes) :
    Attempt m (LiveHandle m × Bytes) := do
  match handle.mode with
  | .none => pure (handle, buffer)
  | .stream => handle.transformStream direction buffer
  | .ecb => do
    let cipher ← handle.cipher
    let output ← checked (Codebook.transform cipher direction handle.chain buffer)
    pure (handle, output)
  | .cbc => do
    let cipher ← handle.cipher
    let (chain, output) ← checked (match direction with
      | .encrypt => BlockChaining.encrypt cipher handle.stealing handle.chain buffer
      | .decrypt => BlockChaining.decrypt cipher handle.stealing handle.chain buffer)
    pure (handle.withChain chain, output)
  | .cfb => do
    let cipher ← handle.cipher
    let (chain, output) ← checked (CipherFeedback.transform cipher direction handle.chain buffer)
    pure (handle.withChain chain, output)
  | .ofb => do
    let cipher ← handle.cipher
    let (chain, output) ← checked (OutputFeedback.transform cipher handle.chain buffer)
    pure (handle.withChain chain, output)
  | .ctr => do
    let cipher ← handle.cipher
    let (chain, output) ← checked (Counter.transform cipher handle.chain buffer)
    pure (handle.withChain chain, output)

/-- Chains a message and writes the MAC over the front of the output. An input
without a whole block writes nothing. -/
def tagInto (handle : LiveHandle m) (input output : Bytes) :
    Attempt m (LiveHandle m × Bytes) := do
  let cipher ← handle.cipher
  let (chain, written) ← checked (BlockChaining.mac cipher handle.chain input)
  let handle := handle.withChain chain
  if written then do
    let (front, rest) ← checked (Checked.split handle.blockLength output)
    let tag ← checked (Checked.replace front chain.iv)
    pure (handle, tag ++ rest)
  else pure (handle, output)

/-- Transforms an input into the front of an output. The input is copied there first, so that is
where a mode that is refused leaves it. -/
def transformInto (handle : LiveHandle m) (direction : Direction) (input output : Bytes) :
    Attempt m (LiveHandle m × Bytes) := do
  let (_, rest) ← checked (Checked.split input.length output)
  let (handle, front) ←
    ExceptT.adapt (Stop.after (input ++ rest)) (handle.transform direction input)
  pure (handle, front ++ rest)

/-- Encrypts an input into the front of an output. -/
def encrypt (handle : LiveHandle m) (input output : Bytes) : Attempt m (LiveHandle m × Bytes) := do
  handle.requireKey
  handle.requireFit .encrypt input.length output.length
  if handle.mac then handle.tagInto input output
  else handle.transformInto .encrypt input output

/-- Encrypts a buffer in place. -/
def encryptInPlace (handle : LiveHandle m) (buffer : Bytes) : Attempt m (LiveHandle m × Bytes) := do
  handle.requireKey
  handle.requireFit .encrypt buffer.length buffer.length
  if handle.mac then handle.tagInto buffer buffer
  else handle.transform .encrypt buffer

/-- Decrypts an input into the front of an output. -/
def decrypt (handle : LiveHandle m) (input output : Bytes) : Attempt m (LiveHandle m × Bytes) := do
  handle.requireKey
  handle.requireFit .decrypt input.length output.length
  handle.transformInto .decrypt input output

/-- Decrypts a buffer in place. -/
def decryptInPlace (handle : LiveHandle m) (buffer : Bytes) : Attempt m (LiveHandle m × Bytes) := do
  handle.requireKey
  handle.requireFit .decrypt buffer.length buffer.length
  handle.transform .decrypt buffer

end LiveHandle

end CipherEngine
