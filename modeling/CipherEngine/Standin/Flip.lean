import CipherEngine.Chaining.Bulk

/-!
# The cipher that flips every bit

A block cipher for tests and measurements: encryption and decryption both flip
every bit of a block, and the key is ignored.
-/
namespace CipherEngine.Standin.Flip

/-- Declared bytes of a block. -/
def blockLength : Nat := 16

/-- Every bit flipped. -/
def complement (block : Bytes) : Bytes := block.map fun byte => byte ^^^ 0xFF

/-- Both directions flip. -/
def blockFunctions : BlockFunctions where
  encrypt _ block := complement block
  decrypt _ block := complement block

/-- A block cipher without bulk routines that takes every key. -/
def primitive {m : Type → Type} [Monad m] : Primitive m where
  setKey context _ := pure (Keying.ignored context)
  block := some blockFunctions.toTransform

end CipherEngine.Standin.Flip
