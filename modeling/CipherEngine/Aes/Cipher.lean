import CipherEngine.Algorithm
import CipherEngine.Aes.Schedule
import CipherEngine.Chaining.Bulk

/-!
# AES as an algorithm

AES is a block cipher with bulk routines. Its context is the schedule of the
key, so that blocks only read it. A key of the wrong length is refused and
leaves the context as it was.
-/
namespace CipherEngine.Aes

/-- Bytes of one block. -/
def blockLength : Nat := 16

/-- The schedule of a key over a context, if the key has the right length. -/
def setKey (variant : Variant) (context key : Bytes) : Keying :=
  if key.length = variant.keyLength then
    ⟨.ok (), Bytes.overlay (scheduleOf variant key) context⟩
  else ⟨.error (.invalidLength variant.keyLength key.length), context⟩

/-- The transforms of single blocks. -/
def blockFunctions (variant : Variant) : BlockFunctions where
  encrypt := encryptBlock variant
  decrypt := decryptBlock variant

/-- AES with one size of key. -/
def primitive (variant : Variant) {m : Type → Type} [Monad m] : Primitive m where
  setKey context key := pure (setKey variant context key)
  block := some (blockFunctions variant).toTransform
  bulk := some ((blockFunctions variant).toBulk blockLength)

/-- The name of a variant, and its other names. -/
def names : Variant → String × List String
  | .aes128 => ("AES", ["RIJNDAEL", "AES128", "AES-128"])
  | .aes192 => ("AES192", ["RIJNDAEL192", "AES-192"])
  | .aes256 => ("AES256", ["RIJNDAEL256", "AES-256"])

/-- The last number of the object identifier before the four of a variant. -/
def designationBase : Variant → Nat
  | .aes128 => 0
  | .aes192 => 20
  | .aes256 => 40

/-- The object identifiers of a variant and the modes they stand for. -/
def designations (variant : Variant) : List Designation :=
  [(1, Mode.ecb), (2, Mode.cbc), (3, Mode.ofb), (4, Mode.cfb)].map fun (arc, mode) =>
    ⟨"2.16.840.1.101.3.4.1." ++ toString (designationBase variant + arc), mode⟩

/-- AES with one size of key, as it is registered. -/
def algorithm (variant : Variant) {m : Type → Type} [Monad m] : Algorithm m where
  name := (names variant).1
  aliases := (names variant).2
  designations := designations variant
  keyBits := UInt64.ofNat (8 * variant.keyLength)
  blockLength := UInt64.ofNat blockLength
  contextSize := UInt64.ofNat variant.contextSize
  contextAlignment := 16
  primitive := primitive variant

end CipherEngine.Aes
