import CipherEngine.Bytes

/-!
# Stand-ins that remember

Some stand-ins for ciphers count their calls or keep a record of them. The bench
holds one tally for each such stand-in, found by its number. A primitive on the
bench runs in the monad that carries the tallies.
-/
namespace CipherEngine.Standin

/-- The functions of a primitive whose calls may be recorded. -/
inductive Function where
  | setKey
  | encryptBlock
  | decryptBlock
  | encryptStream
  | decryptStream
deriving DecidableEq

/-- A call as it began: the context, and the key, block or buffer. -/
structure Call where
  function : Function
  context : Bytes
  data : Bytes
deriving DecidableEq

/-- What one stand-in remembers. -/
structure Tally where
  /-- Keys that were given. -/
  keys : Nat := 0
  /-- Single blocks that were transformed. -/
  blocks : Nat := 0
  /-- Bulk routines that were called. -/
  bulks : Nat := 0
  /-- Recorded calls, latest first. -/
  calls : List Call := []
deriving DecidableEq

/-- The tally of a stand-in that has not been called. -/
def Tally.blank : Tally := {}

/-- The tallies of all stand-ins, by number. -/
abbrev Memory := List Tally

/-- Computations that may count and record. -/
abbrev Bench := StateM Memory

namespace Bench

/-- Gives a number, with an empty tally, to a new stand-in. -/
def newNumber : Bench Nat := fun memory => (memory.length, memory ++ [Tally.blank])

/-- The tally of a stand-in. -/
def tally (number : Nat) : Bench Tally := fun memory => (memory.getD number Tally.blank, memory)

/-- Changes the tally of a stand-in. -/
def note (number : Nat) (change : Tally → Tally) : Bench Unit := fun memory =>
  ((), memory.modify number change)

/-- Records a call. -/
def record (number : Nat) (function : Function) (context data : Bytes) : Bench Unit :=
  note number fun tally => { tally with calls := ⟨function, context, data⟩ :: tally.calls }

end Bench

end CipherEngine.Standin
