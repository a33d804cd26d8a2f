import CipherEngine.Primitive

/-!
# The stream cipher that counts

A stream cipher for tests: the keystream byte at a position is the first byte of
the key, combined with the position. The context holds that byte and then the
position in eight bytes, least significant first, so a stream goes on from call
to call and starts again when the context is restored.
-/
namespace CipherEngine.Standin.PositionStream

/-- Declared bytes of a context: the key byte and the position. -/
def contextSize : Nat := 9

/-- Masks a buffer with the keystream from a position on. -/
def maskFrom (key : UInt8) : (position : Nat) → Bytes → Bytes
  | _, [] => []
  | position, byte :: rest =>
    (byte ^^^ (key ^^^ UInt8.ofNat position)) :: maskFrom key (position + 1) rest

/-- The position that a context holds. -/
def position (context : Bytes) : Nat :=
  Bytes.littleEndian (Bytes.window 1 8 context)

/-- A context with another position. Only the low 64 bits are kept. -/
def withPosition (position : Nat) (context : Bytes) : Bytes :=
  Bytes.overlayAt 1 (Bytes.ofLittleEndian 8 position) context

/-- Masks a buffer and moves the position past it. -/
def advance (context buffer : Bytes) : Bytes × Bytes :=
  (withPosition (position context + buffer.length) context,
    maskFrom (context.headD 0) (position context) buffer)

/-- The first byte of the key over a context of zeros. -/
def setKey (context key : Bytes) : Keying :=
  match key with
  | [] => ⟨.error (.invalidLength 1 0), context⟩
  | first :: _ => ⟨.ok (), Bytes.overlay [first] (Bytes.zeros context.length)⟩

/-- A stream cipher whose two directions are the same. -/
def primitive {m : Type → Type} [Monad m] : Primitive m where
  setKey context key := pure (setKey context key)
  stream := some {
    encrypt := fun context buffer => pure (advance context buffer)
    decrypt := fun context buffer => pure (advance context buffer) }

end CipherEngine.Standin.PositionStream
