import CipherEngine.Bytes

/-!
# Checked cuts and arithmetic

The modes of operation cut buffers at computed places, subtract lengths and
divide by block lengths. Each such step has a precondition, and a step whose
precondition fails stops the computation with a `Fault`. `Checked` is a
computation that may stop so. That no handle ever does is a statement about the
engine; nothing in this module assumes it.
-/
namespace CipherEngine

/-- A step that was asked for outside its domain. -/
inductive Fault where
  /-- A cut at `wanted` in a buffer of `available` bytes. -/
  | window (wanted available : Nat)
  /-- A copy between buffers of different lengths. -/
  | mismatch (expected actual : Nat)
  /-- A difference of lengths below zero. -/
  | underflow (minuend subtrahend : Nat)
  /-- A quotient or remainder by zero. -/
  | zeroDivisor
deriving DecidableEq

/-- A computation in `m` that may stop with a fault. -/
abbrev Checked (m : Type → Type) (α : Type) := ExceptT Fault m α

namespace Checked

variable {m : Type → Type} [Monad m]

/-- Cuts a buffer in two after `count` bytes. -/
def split (count : Nat) (bytes : Bytes) : Checked m (Bytes × Bytes) :=
  if count ≤ bytes.length then pure (bytes.take count, bytes.drop count)
  else throw (.window count bytes.length)

/-- Replaces the whole of `old` by a buffer of the same length. -/
def replace (old fresh : Bytes) : Checked m Bytes :=
  if fresh.length = old.length then pure fresh
  else throw (.mismatch old.length fresh.length)

/-- The difference of two lengths. -/
def subtract (minuend subtrahend : Nat) : Checked m Nat :=
  if subtrahend ≤ minuend then pure (minuend - subtrahend)
  else throw (.underflow minuend subtrahend)

/-- How often `divisor` goes into `dividend`. -/
def quotient (dividend divisor : Nat) : Checked m Nat :=
  if divisor = 0 then throw .zeroDivisor else pure (dividend / divisor)

/-- What is left of `dividend` after taking `divisor` as often as it goes. -/
def remainder (dividend divisor : Nat) : Checked m Nat :=
  if divisor = 0 then throw .zeroDivisor else pure (dividend % divisor)

/-- Cuts a buffer into all its whole blocks of `size` bytes and what is left. -/
def wholeBlocks (size : Nat) (bytes : Bytes) : Checked m (List Bytes × Bytes) := do
  let count ← quotient bytes.length size
  pure (Bytes.cut size count bytes, bytes.drop (count * size))

end Checked

end CipherEngine
