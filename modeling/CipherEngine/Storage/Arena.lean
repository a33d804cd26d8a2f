import CipherEngine.Fault
import CipherEngine.Storage.Layout

/-!
# Arenas

An arena is one region of bytes seen as six slots. Reading and writing go by
slot. A slot is lent to whoever works on it in place, and comes back with the
length that it has; a copy into a slot must fit it, and is a fault if it does
not. So nothing reaches the padding or another slot. Wiping is the one operation
that sees the whole region.

Memory is granted by a machine: it has pages of some size, and it grants or
refuses every request for memory, to map pages, and to lock them. What it grants
is zero bytes.
-/
namespace CipherEngine

/-- The six buffers of a handle, in the order in which they lie. -/
inductive Slot where
  /-- The expanded key that the modes work with. -/
  | live
  /-- The copy of `live` taken right after keying. -/
  | template
  /-- The chaining value. -/
  | iv
  /-- The chaining value before that. -/
  | previous
  /-- The block counter. -/
  | counter
  /-- A temporary block. -/
  | scratch
deriving DecidableEq

/-- Where the memory of an arena comes from. -/
inductive Strategy where
  /-- The common allocator. -/
  | standard
  /-- Whole pages that are locked in memory. -/
  | locked
deriving DecidableEq

/-- The name a strategy goes by in descriptions. -/
def Strategy.name : Strategy → String
  | .standard => "Standard"
  | .locked => "Locked"

/-- What a machine decides about memory. It may refuse a request of any size. -/
structure Machine where
  /-- Bytes of one page. -/
  pageSize : Nat
  /-- Whether the common allocator has so many bytes at such an alignment. -/
  allocates : (size alignment : Nat) → Bool
  /-- Whether so many bytes of pages are mapped. -/
  maps : (length : Nat) → Bool
  /-- Whether so many mapped bytes are locked in memory. -/
  locks : (length : Nat) → Bool
  pagesFilled : 0 < pageSize

/-- A machine with common pages that grants whatever it may have, and has nothing like
2^60 bytes. -/
def Machine.common : Machine where
  pageSize := 4096
  allocates size _ := size < 0x1000000000000000
  maps length := length < 0x1000000000000000
  locks _ := true
  pagesFilled := by decide

/-- So many bytes, rounded up to whole pages. -/
def Machine.inPages (machine : Machine) (size : Nat) : Nat :=
  (size + (machine.pageSize - 1)) / machine.pageSize * machine.pageSize

/-- Rounding up to pages never shortens. -/
theorem Machine.le_inPages (machine : Machine) (size : Nat) : size ≤ machine.inPages size := by
  have filled := machine.pagesFilled
  have parts := Nat.div_add_mod (size + (machine.pageSize - 1)) machine.pageSize
  have rest := Nat.mod_lt (size + (machine.pageSize - 1)) filled
  rw [Nat.mul_comm] at parts
  rw [inPages]
  omega

/-- The byte written over a region before it is given back. -/
def wipeByte : UInt8 := 0xA5

/-- Writes one byte value over a whole string. -/
def wipe (bytes : Bytes) (pattern : UInt8) : Bytes :=
  List.replicate bytes.length pattern

namespace Layout

/-- Where a slot begins. -/
def offset (layout : Layout) : Slot → Nat
  | .live => 0
  | .template => layout.contextStride.toNat
  | .iv => 2 * layout.contextStride.toNat
  | .previous => 2 * layout.contextStride.toNat + layout.blockStride.toNat
  | .counter => 2 * layout.contextStride.toNat + 2 * layout.blockStride.toNat
  | .scratch => 2 * layout.contextStride.toNat + 3 * layout.blockStride.toNat

/-- Bytes of a slot. -/
def size (layout : Layout) : Slot → Nat
  | .live | .template => layout.contextSize.toNat
  | .iv | .previous | .counter | .scratch => layout.blockLength.toNat

/-- Every slot ends inside the region. -/
theorem slot_inside (layout : Layout) (slot : Slot) :
    layout.offset slot + layout.size slot ≤ layout.total.toNat := by
  have contexts := layout.contextFits
  have blocks := layout.blockFits
  have slots := layout.slotsFit
  cases slot <;> simp only [offset, size] <;> omega

/-- Two slots share no byte. -/
theorem slots_apart (layout : Layout) {slot other : Slot} (differ : slot ≠ other) :
    layout.offset slot + layout.size slot ≤ layout.offset other ∨
      layout.offset other + layout.size other ≤ layout.offset slot := by
  have contexts := layout.contextFits
  have blocks := layout.blockFits
  cases slot <;> cases other <;>
    simp only [offset, size, ne_eq, reduceCtorEq, not_true, not_false_eq_true] at differ ⊢ <;>
    omega

end Layout

/-- A region of bytes with the layout of its slots. -/
structure Arena where
  layout : Layout
  strategy : Strategy
  region : Bytes
  covered : layout.total.toNat ≤ region.length

namespace Arena

/-- Bytes of the region that the common allocator gives. It takes no size that,
with alignment, passes half the address space. -/
def standardLength (machine : Machine) (layout : Layout) : Except StorageRefusal Nat :=
  if UInt64.size / 2 < layout.total.toNat + layout.alignment.toNat then .error .sizeOverflow
  else if machine.allocates layout.total.toNat layout.alignment.toNat then .ok layout.total.toNat
  else .error (.allocation layout.total.toNat)

/-- Bytes of the region in locked pages: whole pages, whose start is aligned to
no more than a page. They are mapped first and then locked. -/
def lockedLength (machine : Machine) (layout : Layout) : Except StorageRefusal Nat :=
  if machine.pageSize < layout.alignment.toNat then
    .error (.invalidAlignment layout.alignment.toNat)
  else if UInt64.size ≤ layout.total.toNat + (machine.pageSize - 1) then .error .sizeOverflow
  else if !machine.maps (machine.inPages layout.total.toNat) then .error .map
  else if !machine.locks (machine.inPages layout.total.toNat) then .error .lock
  else .ok (machine.inPages layout.total.toNat)

/-- Bytes of the region that a strategy gives. -/
def regionLength (machine : Machine) (layout : Layout) : Strategy → Except StorageRefusal Nat
  | .standard => standardLength machine layout
  | .locked => lockedLength machine layout

/-- The region holds the slots and their padding. -/
theorem le_regionLength {machine : Machine} {layout : Layout} {strategy : Strategy} {length : Nat}
    (granted : regionLength machine layout strategy = .ok length) :
    layout.total.toNat ≤ length := by
  cases strategy with
  | standard =>
    simp only [regionLength, standardLength] at granted
    split at granted
    · cases granted
    · split at granted
      · cases granted; exact Nat.le_refl _
      · cases granted
  | locked =>
    simp only [regionLength, lockedLength] at granted
    split at granted
    · cases granted
    · split at granted
      · cases granted
      · split at granted
        · cases granted
        · split at granted
          · cases granted
          · cases granted; exact machine.le_inPages _

/-- An arena of zero bytes, if the machine grants it. -/
def ofLayout (layout : Layout) (strategy : Strategy) (machine : Machine := .common) :
    Except StorageRefusal Arena :=
  match granted : regionLength machine layout strategy with
  | .error cause => .error cause
  | .ok length =>
    .ok {
      layout, strategy
      region := Bytes.zeros length
      covered := by rw [Bytes.length_zeros]; exact le_regionLength granted }

/-- An arena that is granted has the layout, and is zero. -/
theorem ofLayout_ok {layout : Layout} {strategy : Strategy} {machine : Machine} {arena : Arena}
    (granted : ofLayout layout strategy machine = .ok arena) :
    arena.layout = layout ∧ arena.region = Bytes.zeros arena.region.length := by
  rw [ofLayout] at granted
  split at granted
  · cases granted
  · cases granted
    exact ⟨rfl, by rw [Bytes.length_zeros]⟩

/-- The bytes of a slot. -/
def read (arena : Arena) (slot : Slot) : Bytes :=
  Bytes.window (arena.layout.offset slot) (arena.layout.size slot) arena.region

/-- Puts bytes into a slot from `start` on, by way of a slot that was lent out. A slot that is
lent has a fixed length, so bytes past its end cannot come back. -/
def put (arena : Arena) (slot : Slot) (start : Nat) (bytes : Bytes) : Arena :=
  { arena with
    region :=
      Bytes.overlayAt (arena.layout.offset slot + start)
        (bytes.take (arena.layout.size slot - start)) arena.region
    covered := by rw [Bytes.length_overlayAt]; exact arena.covered }

/-- Zero bytes in a slot. -/
def clear (arena : Arena) (slot : Slot) : Arena :=
  arena.put slot 0 (Bytes.zeros (arena.layout.size slot))

/-- Writes the wipe pattern over the whole region, padding included. -/
def wipe (arena : Arena) : Arena :=
  { arena with
    region := CipherEngine.wipe arena.region wipeByte
    covered := by rw [CipherEngine.wipe, List.length_replicate]; exact arena.covered }

section Copies

variable {m : Type → Type} [Monad m]

/-- Copies bytes into a slot from `start` on. They must not reach past its end. -/
def write (arena : Arena) (slot : Slot) (start : Nat) (bytes : Bytes) : Checked m Arena :=
  if start + bytes.length ≤ arena.layout.size slot then pure (arena.put slot start bytes)
  else throw (.window (start + bytes.length) (arena.layout.size slot))

/-- Copies bytes over a slot. They must have its length. -/
def copy (arena : Arena) (slot : Slot) (bytes : Bytes) : Checked m Arena := do
  let fresh ← Checked.replace (arena.read slot) bytes
  pure (arena.put slot 0 fresh)

/-- Keeps the live context as the template. -/
def commit (arena : Arena) : Checked m Arena :=
  arena.copy .template (arena.read .live)

/-- Brings the template back into the live context. -/
def restore (arena : Arena) : Checked m Arena :=
  arena.copy .live (arena.read .template)

end Copies

/-- A single change to an arena. -/
inductive Change where
  | write (slot : Slot) (start : Nat) (bytes : Bytes)
  | commit
  | restore
  | wipe
deriving DecidableEq

/-- Makes a change. -/
def make {m : Type → Type} [Monad m] (arena : Arena) : Change → Checked m Arena
  | .write slot start bytes => arena.write slot start bytes
  | .commit => arena.commit
  | .restore => arena.restore
  | .wipe => pure arena.wipe

/-- The arena after a change. One that cannot be made leaves it as it is. -/
def change (arena : Arena) (change : Change) : Arena :=
  match Id.run (arena.make change).run with
  | .ok after => after
  | .error _ => arena

/-- The length of a slot never changes. -/
@[simp] theorem length_read (arena : Arena) (slot : Slot) :
    (arena.read slot).length = arena.layout.size slot :=
  Bytes.length_window (Nat.le_trans (arena.layout.slot_inside slot) arena.covered)

/-- Putting bytes into a slot leaves the layout. -/
@[simp] theorem layout_put (arena : Arena) (slot : Slot) (start : Nat) (bytes : Bytes) :
    (arena.put slot start bytes).layout = arena.layout := rfl

/-- In an arena of zero bytes every slot is zero. -/
theorem read_of_zeros {arena : Arena} (zero : arena.region = Bytes.zeros arena.region.length)
    (slot : Slot) : arena.read slot = Bytes.zeros (arena.layout.size slot) := by
  have inside := Nat.le_trans (arena.layout.slot_inside slot) arena.covered
  rw [read, zero, Bytes.window_zeros inside]

/-- A written slot holds what was written over what it held. -/
theorem read_put_self (arena : Arena) (slot : Slot) (start : Nat) (bytes : Bytes) :
    (arena.put slot start bytes).read slot = Bytes.overlayAt start bytes (arena.read slot) := by
  have width := length_read arena slot
  by_cases starts : start ≤ arena.layout.size slot
  · simp only [read, put] at *
    rw [Bytes.window_overlayAt_of_inside (by simp; omega)]
    apply List.ext_getElem?
    intro index
    simp only [Bytes.getElem?_overlayAt]
    grind
  · simp only [read, put] at *
    rw [Bytes.window_overlayAt_of_apart _ (Or.inr (by omega))]
    apply List.ext_getElem?
    intro index
    simp only [Bytes.getElem?_overlayAt]
    grind

/-- A slot that is written over from end to end holds what was written. -/
theorem read_put_whole (arena : Arena) {slot : Slot} {bytes : Bytes}
    (fills : bytes.length = arena.layout.size slot) :
    (arena.put slot 0 bytes).read slot = bytes := by
  rw [read_put_self, Bytes.overlayAt_whole (fills.trans (length_read arena slot).symm)]

/-- Writing to a slot leaves the others alone. -/
theorem read_put_of_ne (arena : Arena) {slot other : Slot} (start : Nat) (bytes : Bytes)
    (differ : slot ≠ other) :
    (arena.put slot start bytes).read other = arena.read other := by
  have apart := arena.layout.slots_apart differ
  by_cases starts : start ≤ arena.layout.size slot
  · simp only [read, put]
    apply Bytes.window_overlayAt_of_apart
    simp
    omega
  · have nothing : arena.layout.size slot - start = 0 := by omega
    simp only [read, put, nothing]
    apply List.ext_getElem?
    intro index
    simp only [Bytes.getElem?_window, Bytes.getElem?_overlayAt]
    simp

/-- A slot that is written with what it holds is left alone. -/
theorem put_read (arena : Arena) (slot : Slot) : arena.put slot 0 (arena.read slot) = arena := by
  obtain ⟨layout, strategy, region, covered⟩ := arena
  have inside := layout.slot_inside slot
  simp only [put, read, mk.injEq, true_and]
  apply List.ext_getElem?
  intro index
  simp only [Bytes.getElem?_overlayAt, List.getElem?_take, Bytes.getElem?_window]
  grind

/-- Of two writes of one length to a slot the second one counts. -/
theorem put_put (arena : Arena) {slot : Slot} {first second : Bytes}
    (same : first.length = second.length) :
    (arena.put slot 0 first).put slot 0 second = arena.put slot 0 second := by
  simp only [put, mk.injEq, true_and]
  apply List.ext_getElem?
  intro index
  simp only [Bytes.getElem?_overlayAt, Bytes.length_overlayAt, List.length_take]
  grind

/-- A cleared slot is zero. -/
theorem read_clear_self (arena : Arena) (slot : Slot) :
    (arena.clear slot).read slot = Bytes.zeros (arena.layout.size slot) :=
  read_put_whole _ (Bytes.length_zeros _)

/-- Clearing a slot leaves the others alone. -/
theorem read_clear_of_ne (arena : Arena) {slot other : Slot} (differ : slot ≠ other) :
    (arena.clear slot).read other = arena.read other := read_put_of_ne _ _ _ differ

/-- The arena on one line, without its bytes. -/
def describe (arena : Arena) : String :=
  Text.openRecord "ContextArena"
    [⟨"layout", arena.layout.describe⟩, ⟨"strategy", arena.strategy.name⟩]

end Arena

end CipherEngine
