import CipherEngine.Chaining.State

/-!
# Electronic codebook

Every whole block is transformed on its own. What follows the last whole block
is left alone; a handle admits no such rest.
-/
namespace CipherEngine.Codebook

variable {m : Type → Type} [Monad m]

/-- Each block transformed, in order. -/
def each (cipher : KeyedCipher m) (direction : Direction) : List Bytes → Checked m (List Bytes)
  | [] => pure []
  | block :: rest => do
    let first ← cipher.run direction block
    let others ← each cipher direction rest
    pure (first :: others)

/-- A buffer transformed block by block. -/
def transform (cipher : KeyedCipher m) (direction : Direction) (chain : Chain) (buffer : Bytes) :
    Checked m Bytes := do
  let (blocks, rest) ← Checked.wholeBlocks chain.blockLength buffer
  let outputs ← each cipher direction blocks
  pure (outputs.flatten ++ rest)

end CipherEngine.Codebook
