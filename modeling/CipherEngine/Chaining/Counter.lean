import CipherEngine.Chaining.State

/-!
# Counter mode

The counter is one block, read as a big-endian number. Every call starts at a
new keystream block: each block of the message, the short one at the end
included, is masked with the encrypted counter, and then the counter goes up by
one. Keystream that a short block leaves unused is not carried on.
-/
namespace CipherEngine.Counter

variable {m : Type → Type} [Monad m]

/-- Adds one to a number whose first byte is the least significant. -/
def successorLittle : Bytes → Bytes
  | [] => []
  | byte :: rest => if byte + 1 = 0 then 0 :: successorLittle rest else (byte + 1) :: rest

/-- Adds one to a number whose last byte is the least significant, up to
overflow of the whole block. -/
def successor (counter : Bytes) : Bytes :=
  (successorLittle counter.reverse).reverse

/-- A successor has the length of the counter: a carry out of the last byte is lost. -/
@[simp] theorem length_successorLittle (bytes : Bytes) :
    (successorLittle bytes).length = bytes.length := by
  induction bytes with
  | nil => rfl
  | cons byte rest inductionHypothesis =>
    simp only [successorLittle]
    split <;> simp [inductionHypothesis]

/-- And so it has with the bytes in the order of the counter. -/
@[simp] theorem length_successor (counter : Bytes) :
    (successor counter).length = counter.length := by
  simp [successor]

/-- Masks chunks one by one, each with the encrypted counter. -/
def maskEach (cipher : KeyedCipher m) :
    (chain : Chain) → List Bytes → Checked m (Chain × List Bytes)
  | chain, [] => pure (chain, [])
  | chain, chunk :: rest => do
    let fresh ← Checked.replace chain.scratch chain.counter
    let scratch ← cipher.encrypt fresh
    let (last, others) ←
      maskEach cipher { chain with counter := successor chain.counter, scratch } rest
    pure (last, Bytes.mask chunk scratch :: others)

/-- The whole blocks of a buffer, and what follows them if that is not empty. -/
def chunks (size : Nat) (buffer : Bytes) : Checked m (List Bytes) := do
  let (blocks, rest) ← Checked.wholeBlocks size buffer
  pure (if rest.isEmpty then blocks else blocks ++ [rest])

/-- Transforms a buffer and leaves no keystream in the temporary block. -/
def transform (cipher : KeyedCipher m) (chain : Chain) (buffer : Bytes) :
    Checked m (Chain × Bytes) := do
  let pieces ← chunks chain.blockLength buffer
  let (chain, outputs) ← maskEach cipher chain pieces
  pure ({ chain with scratch := Bytes.zeros chain.scratch.length }, outputs.flatten)

end CipherEngine.Counter
