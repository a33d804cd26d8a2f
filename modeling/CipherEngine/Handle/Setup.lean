import CipherEngine.Handle.Transform

/-!
# Setting up a handle

Keys, chaining values, counters and options. A key goes to the primitive; an
accepted key's context is kept as the template to which a reset returns. The
carry of a feedback mode ends with a new chaining value, a reset or a
realignment. Every copy into the arena is checked.
-/
namespace CipherEngine.LiveHandle

variable {m : Type → Type}

/-- Gives a key to the primitive, which works on the context in place. Returns the verdict and
what is logged. -/
def setKey [Monad m] (handle : LiveHandle m) (key : Bytes) :
    Checked m (LiveHandle m × Except Refusal Unit × List Event) := do
  let keying ← ExceptT.lift (handle.primitive.setKey (handle.arena.read .live) key)
  let arena := handle.arena.put .live 0 keying.context
  match keying.verdict with
  | .ok () => do
    let arena ← arena.commit
    pure ({ handle with arena, keyed := true }, .ok (), [])
  | .error cause =>
    pure ({ handle with arena, keyed := false }, .error cause.toRefusal,
      [.keyRefused handle.pin.id cause])

/-- What is logged of a chaining value: that it is too short or too long. -/
def ivEvents (handle : LiveHandle m) (iv : Bytes) : List Event :=
  if iv.length = handle.blockLength then []
  else [.ivMismatch iv.length handle.blockLength]

/-- Sets the chaining value, cut or padded with zeros to one block: the slot is cleared, and then
as much is copied as a block takes. -/
def setIv [Monad m] (handle : LiveHandle m) (iv : Bytes) :
    Checked m (LiveHandle m × List Event) := do
  let arena ← (handle.arena.clear .iv).write .iv 0 (iv.take handle.blockLength)
  pure ({ handle with arena, carry := 0 }, handle.ivEvents iv)

/-- Sets the counter to a block, or to zero if none or an empty one is given. -/
def setCounter [Monad m] (handle : LiveHandle m) (counter : Option Bytes) :
    Checked m (LiveHandle m × Except Refusal Unit) :=
  match counter with
  | none => pure ({ handle with arena := handle.arena.clear .counter }, .ok ())
  | some block =>
    if block.length = handle.blockLength then do
      let arena ← handle.arena.copy .counter block
      pure ({ handle with arena }, .ok ())
    else if block.isEmpty then
      pure ({ handle with arena := handle.arena.clear .counter }, .ok ())
    else
      pure (handle, .error (.argument (.counterLength handle.blockLength block.length)))

/-- Returns to the state right after keying: the template is the context again,
and all else is zero. -/
def reset [Monad m] (handle : LiveHandle m) : Checked m (LiveHandle m × Except Refusal Unit) :=
  if handle.keyed then do
    let arena ← handle.arena.restore
    pure ({ handle with
      arena := (((arena.clear .iv).clear .previous).clear .counter).clear .scratch
      carry := 0 }, .ok ())
  else pure (handle, .error (.configuration .noKey))

/-- Realigns the chaining value to the last block boundary, if the handle allows
it and a call has ended inside a block. -/
def syncFeedback [Monad m] (handle : LiveHandle m) : Checked m (LiveHandle m) := do
  if handle.flags.syncEnabled && handle.carry ≠ 0 then do
    let chain ← CipherFeedback.realign handle.chain
    pure (handle.withChain chain)
  else pure handle

/-- Switches ciphertext stealing. It cannot be on together with MAC output. -/
def setStealing (handle : LiveHandle m) (enable : Bool) : LiveHandle m × Except Refusal Unit :=
  if enable && handle.flags.mac then (handle, .error (.configuration .conflictingOptions))
  else ({ handle with flags := handle.flags.change (.stealing enable) }, .ok ())

/-- Switches MAC output. It cannot be on together with ciphertext stealing. -/
def setMac (handle : LiveHandle m) (enable : Bool) : LiveHandle m × Except Refusal Unit :=
  if enable && handle.flags.stealing then (handle, .error (.configuration .conflictingOptions))
  else ({ handle with flags := handle.flags.change (.mac enable) }, .ok ())

end CipherEngine.LiveHandle
