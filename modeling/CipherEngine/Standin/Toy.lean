import CipherEngine.Primitive
import CipherEngine.Standin.Bench

/-!
# The cipher that records its calls

A toy cipher for tests, with a block transform, a stream transform, or both. It
depends on the key, on the place of a byte in its block and on the bytes before,
so that a wrong context, a wrong offset or a wrong order shows in the output. All
arithmetic is on bytes. Every call is recorded as it begins.
-/
namespace CipherEngine.Standin.Toy

/-- The byte of a context at a place, around and around; zero if it is empty. -/
def keyByte (context : Bytes) (index : Nat) : UInt8 :=
  context.getD (index % context.length) 0

/-- A byte with its bits moved up by three, around. -/
def rotateLeft3 (byte : UInt8) : UInt8 := (byte <<< 3) ||| (byte >>> 5)

/-- A byte with its bits moved down by three, around. -/
def rotateRight3 (byte : UInt8) : UInt8 := (byte >>> 3) ||| (byte <<< 5)

/-- Encrypts from a place on, given the output byte before it. -/
def encryptFrom (context : Bytes) : (index : Nat) → (last : UInt8) → Bytes → Bytes
  | _, _, [] => []
  | index, last, byte :: rest =>
    let sealed := rotateLeft3 (byte + keyByte context index + UInt8.ofNat index) ^^^ last
    sealed :: encryptFrom context (index + 1) sealed rest

/-- Decrypts from a place on, given the input byte before it. -/
def decryptFrom (context : Bytes) : (index : Nat) → (last : UInt8) → Bytes → Bytes
  | _, _, [] => []
  | index, last, byte :: rest =>
    (rotateRight3 (byte ^^^ last) - UInt8.ofNat index - keyByte context index) ::
      decryptFrom context (index + 1) byte rest

/-- The byte before the first of a block. -/
def start : UInt8 := 0x5a

/-- One block encrypted. -/
def encryptBlock (context block : Bytes) : Bytes := encryptFrom context 0 start block

/-- One block decrypted. -/
def decryptBlock (context block : Bytes) : Bytes := decryptFrom context 0 start block

/-- Encrypts a stream: adds the first byte of the context, which becomes the
output byte. -/
def encryptStream : (context buffer : Bytes) → Bytes × Bytes
  | context, [] => (context, [])
  | context, byte :: rest =>
    let sealed := byte + keyByte context 0
    let (context, others) := encryptStream (Bytes.overlay [sealed] context) rest
    (context, sealed :: others)

/-- Decrypts a stream: subtracts the first byte of the context, which becomes the
input byte. -/
def decryptStream : (context buffer : Bytes) → Bytes × Bytes
  | context, [] => (context, [])
  | context, byte :: rest =>
    let opened := byte - keyByte context 0
    let (context, others) := decryptStream (Bytes.overlay [byte] context) rest
    (context, opened :: others)

/-- Judges a key. A key that is refused for its first byte or its length has
already left that byte in the context; a key that is taken fills the context
around and around. -/
def setKey (context key : Bytes) : Keying :=
  match key with
  | [] => ⟨.error (.rejected "empty key"), context⟩
  | first :: _ =>
    let touched := Bytes.overlay [first] context
    if first = 0xff then ⟨.error .weak, touched⟩
    else if context.length < key.length then
      ⟨.error (.invalidLength context.length key.length), touched⟩
    else
      ⟨.ok (), (List.range context.length).map fun index => key.getD (index % key.length) 0⟩

/-- The block transform, recorded. -/
def block (number : Nat) : BlockCipher Bench where
  encrypt context block := do
    Bench.record number .encryptBlock context block
    pure (encryptBlock context block)
  decrypt context block := do
    Bench.record number .decryptBlock context block
    pure (decryptBlock context block)

/-- The stream transform, recorded. -/
def stream (number : Nat) : StreamCipher Bench where
  encrypt context buffer := do
    Bench.record number .encryptStream context buffer
    pure (encryptStream context buffer)
  decrypt context buffer := do
    Bench.record number .decryptStream context buffer
    pure (decryptStream context buffer)

/-- The toy cipher with a number and with the capabilities asked for. -/
def primitive (number : Nat) (withBlock withStream : Bool) : Primitive Bench where
  setKey context key := do
    Bench.record number .setKey context key
    pure (setKey context key)
  block := if withBlock then some (block number) else none
  stream := if withStream then some (stream number) else none

end CipherEngine.Standin.Toy
