import CipherEngine.Aes.Cipher
import CipherEngine.Standin.Counted
import CipherEngine.Standin.PositionStream
import CipherEngine.Standin.Toy

/-!
# Kinds of stand-in

All stand-ins with their declared sizes. A stand-in that remembers gets a number
on the bench when it is made; the others need none.
-/
namespace CipherEngine.Standin

/-- What a primitive on the bench is. -/
inductive Kind where
  | flip
  | positionStream
  | counted (policy : Counted.Policy) (withBulk : Bool)
  | inert
  | toy (withBlock withStream : Bool)
  | aes (variant : Aes.Variant)
deriving DecidableEq

/-- How the calls of a primitive can be seen. -/
inductive Instrument where
  | counted (number : Nat)
  | recorded (number : Nat)
  | unseen
deriving DecidableEq

/-- Sizes that a kind declares. -/
structure Sizes where
  keyBits : UInt64
  blockLength : UInt64
  contextSize : UInt64
deriving DecidableEq

/-- The sizes that a kind declares. -/
def Kind.sizes : Kind → Sizes
  | .flip | .counted .. => ⟨128, 16, 16⟩
  | .positionStream => ⟨8, 1, 9⟩
  | .inert | .toy .. => ⟨64, 8, 8⟩
  | .aes variant =>
    ⟨UInt64.ofNat (8 * variant.keyLength), UInt64.ofNat Aes.blockLength,
      UInt64.ofNat variant.contextSize⟩

/-- A primitive without capabilities that takes every key. -/
def inertPrimitive {m : Type → Type} [Monad m] : Primitive m where
  setKey context _ := pure (Keying.ignored context)

/-- Makes a primitive of a kind. -/
def Kind.make : Kind → Bench (Primitive Bench × Instrument)
  | .flip => pure (Flip.primitive, .unseen)
  | .positionStream => pure (PositionStream.primitive, .unseen)
  | .inert => pure (inertPrimitive, .unseen)
  | .aes variant => pure (Aes.primitive variant, .unseen)
  | .counted policy withBulk => do
    let number ← Bench.newNumber
    pure (Counted.primitive number policy withBulk, .counted number)
  | .toy withBlock withStream => do
    let number ← Bench.newNumber
    pure (Toy.primitive number withBlock withStream, .recorded number)

end CipherEngine.Standin
