import CipherEngine.Refusal

/-!
# Ciphers without a mode

A primitive is a cipher as the engine sees it: it turns a key into a context,
and it transforms single blocks, or streams, under that context. What it cannot
do is absent, and a mode that needs it is refused when a handle is opened.

The functions run in a monad, so that a primitive may count or record its own
calls. A primitive that only computes lives in every monad.
-/
namespace CipherEngine

/-- Encrypts and decrypts one block under a context that it does not change. -/
structure BlockCipher (m : Type → Type) where
  encrypt : (context block : Bytes) → m Bytes
  decrypt : (context block : Bytes) → m Bytes

/-- Encrypts and decrypts a buffer of any length. The place in the stream is
kept in the context, so each call returns the new context and the new buffer. -/
structure StreamCipher (m : Type → Type) where
  encrypt : (context buffer : Bytes) → m (Bytes × Bytes)
  decrypt : (context buffer : Bytes) → m (Bytes × Bytes)

/-- Faster routines for many blocks at once. Each takes a context, a chaining
value and a buffer, works on the whole blocks of the buffer, and returns the
chaining value and the buffer that the block by block computation gives. -/
structure BulkRoutines (m : Type → Type) where
  cbcEncrypt : (context iv buffer : Bytes) → m (Bytes × Bytes)
  cbcDecrypt : (context iv buffer : Bytes) → m (Bytes × Bytes)
  cfbEncrypt : (context iv buffer : Bytes) → m (Bytes × Bytes)
  cfbDecrypt : (context iv buffer : Bytes) → m (Bytes × Bytes)
  /-- Chains the buffer into the value and returns only the value. -/
  cbcMac : (context iv buffer : Bytes) → m Bytes

/-- What a key leaves behind: a verdict, and the context either way. -/
structure Keying where
  verdict : Except KeyRefusal Unit
  context : Bytes

/-- A cipher: how it takes a key, and the capabilities it has. -/
structure Primitive (m : Type → Type) where
  setKey : (context key : Bytes) → m Keying
  block : Option (BlockCipher m) := none
  stream : Option (StreamCipher m) := none
  bulk : Option (BulkRoutines m) := none

/-- Takes every key and leaves the context alone. -/
def Keying.ignored (context : Bytes) : Keying := ⟨.ok (), context⟩

/-- Whether a primitive can do what a mode needs. -/
def Primitive.supports {m : Type → Type} (primitive : Primitive m) (mode : Mode) : Bool :=
  match mode.needs with
  | none => true
  | some .block => primitive.block.isSome
  | some .stream => primitive.stream.isSome

/-- The two directions of a transform. -/
inductive Direction where
  | encrypt
  | decrypt
deriving DecidableEq

end CipherEngine
