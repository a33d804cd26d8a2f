import CipherEngine.Proofs.Handle.Reach

/-!
# Handles that agree

Two handles agree when they hold the same wherever it matters: beside their settings,
the contexts and the chaining value, the previous chaining value inside a block, and
the counter where it is asked for. The temporary block never matters. What a request
writes to both handles keeps them so.
-/
namespace CipherEngine

/-- The arenas hold the same in every slot that is seen. -/
def Arena.Agree (seen : Slot → Prop) (arena other : Arena) : Prop :=
  ∀ slot, seen slot → other.read slot = arena.read slot

namespace Arena.Agree

variable {seen : Slot → Prop} {arena other : Arena}

/-- What is written to both is the same in both. -/
theorem put (agree : Agree seen arena other) (slot : Slot) (bytes : Bytes) :
    Agree seen (arena.put slot 0 bytes) (other.put slot 0 bytes) := by
  intro place visible
  by_cases here : slot = place
  · subst here
    rw [read_put_self, read_put_self, agree slot visible]
  · rw [read_put_of_ne _ _ _ here, read_put_of_ne _ _ _ here, agree place visible]

/-- A slot that is not seen may be written over. -/
theorem put_unseen (agree : Agree seen arena other) (slot : Slot) (unseen : ¬ seen slot)
    (bytes otherBytes : Bytes) :
    Agree seen (arena.put slot 0 bytes) (other.put slot 0 otherBytes) := by
  intro place visible
  have apart : slot ≠ place := fun here => unseen (here ▸ visible)
  rw [read_put_of_ne _ _ _ apart, read_put_of_ne _ _ _ apart, agree place visible]

/-- Fewer slots are seen. -/
theorem mono (fewer : Slot → Prop) (agree : Agree seen arena other)
    (implied : ∀ slot, fewer slot → seen slot) : Agree fewer arena other :=
  fun slot visible => agree slot (implied slot visible)

/-- Where the contexts agree, so do they after the live one is kept as the template. -/
theorem committed (agree : Agree seen arena other) (visible : seen .live) :
    Agree seen arena.committed other.committed := by
  unfold Arena.committed
  rw [agree .live visible]
  exact agree.put .template _

/-- Where the contexts agree, so do they after the template is brought back. -/
theorem restored (agree : Agree seen arena other) (visible : seen .template) :
    Agree seen arena.restored other.restored := by
  unfold Arena.restored
  rw [agree .template visible]
  exact agree.put .live _

/-- Slots of one size are cleared alike. -/
theorem clear (agree : Agree seen arena other) (slot : Slot)
    (sizes : other.layout.size slot = arena.layout.size slot) :
    Agree seen (arena.clear slot) (other.clear slot) := by
  unfold Arena.clear
  rw [sizes]
  exact agree.put slot _

end Arena.Agree

/-- The slots that a handle with such a carry can still read; the counter is among them
if it counts. -/
def Slot.Read (counts : Prop) (carry : Nat) : Slot → Prop
  | .live | .template | .iv => True
  | .previous => carry ≠ 0
  | .counter => counts
  | .scratch => False

/-- At a block boundary less is read. -/
theorem Arena.Agree.boundary {counts : Prop} {carry : Nat} {arena other : Arena}
    (agree : Agree (Slot.Read counts carry) arena other) :
    Agree (Slot.Read counts 0) arena other := by
  refine agree.mono _ fun slot visible => ?_
  cases slot with
  | live | template | iv => trivial
  | previous => exact absurd rfl visible
  | counter | scratch => exact visible

namespace LiveHandle

variable {m n : Type → Type}

/-- The handles are of one algorithm, mode and choice of options, and have the same
contexts from the same verdict on their last keys. -/
structure KeyedAlike (handle twin : LiveHandle m) : Prop where
  id : twin.pin.id = handle.pin.id
  algorithm : twin.pin.algorithm = handle.pin.algorithm
  mode : twin.mode = handle.mode
  flags : twin.flags = handle.flags
  keyed : twin.keyed = handle.keyed
  live : twin.arena.read .live = handle.arena.read .live
  template : twin.arena.read .template = handle.arena.read .template

/-- The handles, which may be on primitives of two kinds, agree on their settings and on
what they can still read. -/
structure Agrees (counts : Prop) (handle : LiveHandle m) (other : LiveHandle n) : Prop where
  id : other.pin.id = handle.pin.id
  mode : other.mode = handle.mode
  flags : other.flags = handle.flags
  keyed : other.keyed = handle.keyed
  carry : other.carry = handle.carry
  arena : Arena.Agree (Slot.Read counts handle.carry) handle.arena other.arena

end LiveHandle

end CipherEngine
