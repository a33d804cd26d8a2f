import CipherEngine.Standin.Bench
import CipherEngine.Standin.Flip

/-!
# The cipher that counts its calls

A block cipher for tests that flips every bit, counts the keys, blocks and bulk
calls it gets, and can be told to refuse keys. It writes into the context before
it refuses, so that a test can see what becomes of a context after a refusal.
-/
namespace CipherEngine.Standin.Counted

/-- Which keys are refused as weak. -/
inductive Policy where
  | never
  | always
  /-- The key with this number. -/
  | nth (number : Nat)
deriving DecidableEq

/-- Whether the key with a number, counted from one, is refused. -/
def Policy.refuses (policy : Policy) (call : Nat) : Bool :=
  match policy with
  | .never => false
  | .always => true
  | .nth number => number = call

/-- A context after a key: zeros, and the first byte of the key if it has one. -/
def keyedContext (context key : Bytes) : Bytes :=
  Bytes.overlay (key.take 1) (Bytes.zeros context.length)

/-- Counts a key and judges it. -/
def setKey (number : Nat) (policy : Policy) (context key : Bytes) : Bench Keying := do
  Bench.note number fun tally => { tally with keys := tally.keys + 1 }
  let tally ← Bench.tally number
  let verdict := if policy.refuses tally.keys then .error .weak else .ok ()
  pure ⟨verdict, keyedContext context key⟩

/-- Runs a computation and counts a single block. -/
def countBlock {α : Type} (number : Nat) (computation : Bench α) : Bench α := do
  Bench.note number fun tally => { tally with blocks := tally.blocks + 1 }
  computation

/-- Runs a computation and counts a bulk call. -/
def countBulk {α : Type} (number : Nat) (computation : Bench α) : Bench α := do
  Bench.note number fun tally => { tally with bulks := tally.bulks + 1 }
  computation

/-- The transform of single blocks, counted. -/
def block (number : Nat) : BlockCipher Bench :=
  let plain : BlockCipher Bench := Flip.blockFunctions.toTransform
  { encrypt := fun context block => countBlock number (plain.encrypt context block)
    decrypt := fun context block => countBlock number (plain.decrypt context block) }

/-- The bulk routines, counted. -/
def bulk (number : Nat) : BulkRoutines Bench :=
  let plain : BulkRoutines Bench := Flip.blockFunctions.toBulk Flip.blockLength
  { cbcEncrypt := fun context iv buffer => countBulk number (plain.cbcEncrypt context iv buffer)
    cbcDecrypt := fun context iv buffer => countBulk number (plain.cbcDecrypt context iv buffer)
    cfbEncrypt := fun context iv buffer => countBulk number (plain.cfbEncrypt context iv buffer)
    cfbDecrypt := fun context iv buffer => countBulk number (plain.cfbDecrypt context iv buffer)
    cbcMac := fun context iv buffer => countBulk number (plain.cbcMac context iv buffer) }

/-- The counting cipher with a number, with or without bulk routines. -/
def primitive (number : Nat) (policy : Policy) (withBulk : Bool) : Primitive Bench where
  setKey := setKey number policy
  block := some (block number)
  bulk := if withBulk then some (bulk number) else none

end CipherEngine.Standin.Counted
