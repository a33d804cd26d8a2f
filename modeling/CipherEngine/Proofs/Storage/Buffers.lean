import CipherEngine.Proofs.Storage.Alignment
import CipherEngine.Proofs.Storage.Copies
import Mathlib.Logic.Function.Basic

/-!
# Six buffers in one region

An arena stands for six buffers that know nothing of each other: two of the size of a
context, and four of the length of a block. The same changes are made to both, and a slot
of the arena always holds the bytes of its buffer. What belongs to no slot stays zero until
the arena is wiped.
-/
namespace CipherEngine

/-- The slots in the order in which they lie. -/
def Slot.inOrder : List Slot := [.live, .template, .iv, .previous, .counter, .scratch]

/-- Six separate buffers. -/
abbrev Buffers := Slot → Bytes

namespace Buffers

/-- Two buffers for contexts and four for blocks, all zero. -/
def zeros (contextSize blockLength : Nat) : Buffers
  | .live | .template => Bytes.zeros contextSize
  | .iv | .previous | .counter | .scratch => Bytes.zeros blockLength

/-- The buffers after a change. A write takes the place of as many bytes, and the others of its
buffer stay; a wipe reaches every byte. -/
def change (buffers : Buffers) : Arena.Change → Buffers
  | .write slot start bytes =>
    let held := buffers slot
    Function.update buffers slot
      (held.take start ++ bytes ++ held.drop (start + bytes.length))
  | .commit => Function.update buffers .template (buffers .live)
  | .restore => Function.update buffers .live (buffers .template)
  | .wipe => fun slot => List.replicate (buffers slot).length wipeByte

end Buffers

namespace Layout

/-- Bytes from the start of a slot to the start of the next one. -/
def stride (layout : Layout) : Slot → Nat
  | .live | .template => layout.contextStride.toNat
  | .iv | .previous | .counter | .scratch => layout.blockStride.toNat

/-- Splits one stride after the other off the front of a region, and keeps of each the bytes
of its slot. -/
def carve (layout : Layout) : List Slot → (region : Bytes) → List Bytes
  | [], _ => []
  | slot :: rest, region =>
    (region.take (layout.stride slot)).take (layout.size slot) ::
      carve layout rest (region.drop (layout.stride slot))

/-- A place in the region that belongs to no slot: padding behind one, or slack behind all. -/
def Unused (layout : Layout) (place : Nat) : Prop :=
  ∀ slot, place < layout.offset slot ∨ layout.offset slot + layout.size slot ≤ place

/-- The slots lie one behind the other in their order. -/
theorem offsets_ordered (layout : Layout) :
    Slot.inOrder.Pairwise fun first second =>
      layout.offset first + layout.size first ≤ layout.offset second := by
  have contexts := layout.contextFits
  have blocks := layout.blockFits
  simp only [Slot.inOrder, List.pairwise_cons, List.mem_cons, List.not_mem_nil, or_false,
    forall_eq_or_imp, forall_eq, false_implies, implies_true, List.Pairwise.nil, and_true,
    offset, size]
  omega

end Layout

namespace Arena

/-- Whether a change writes inside its slot. -/
def Change.InRange (layout : Layout) : Change → Prop
  | .write slot start bytes => start + bytes.length ≤ layout.size slot
  | .commit | .restore | .wipe => True

variable {arena : Arena} {buffers : Buffers}

/-- Splitting strides off the front gives the slots. -/
theorem carve_region (arena : Arena) :
    arena.layout.carve Slot.inOrder arena.region = Slot.inOrder.map arena.read := by
  have contexts := Nat.min_eq_left arena.layout.contextFits
  have blocks := Nat.min_eq_left arena.layout.blockFits
  have tripled (stride : Nat) : 3 * stride = stride + stride + stride := by omega
  simp only [Slot.inOrder, Layout.carve, Layout.stride, Layout.size, List.take_take, contexts,
    blocks, List.drop_drop, List.map_cons, List.map_nil, read, Bytes.window, Layout.offset,
    List.drop_zero, Nat.two_mul, tripled, Nat.add_assoc]

/-- A write that ends inside its slot is made. -/
theorem change_write {slot : Slot} {start : Nat} {bytes : Bytes}
    (fits : start + bytes.length ≤ arena.layout.size slot) :
    arena.change (.write slot start bytes) = arena.put slot start bytes := by
  rw [change, make, write_of_fits fits]
  rfl

/-- A commit is always made. -/
theorem change_commit (arena : Arena) : arena.change .commit = arena.committed := by
  rw [change, make, commit_eq]
  rfl

/-- So is a return to the template. -/
theorem change_restore (arena : Arena) : arena.change .restore = arena.restored := by
  rw [change, make, restore_eq]
  rfl

/-- A change inside its slot meets no fault. -/
theorem make_of_inRange {m : Type → Type} [Monad m] [LawfulMonad m] {change : Change}
    (inRange : change.InRange arena.layout) :
    (arena.make change : Checked m Arena) = pure (arena.change change) := by
  cases change with
  | write slot start bytes => rw [change_write inRange, make, write_of_fits inRange]
  | commit => rw [change_commit, make, commit_eq]
  | restore => rw [change_restore, make, restore_eq]
  | wipe => rfl

/-- Whatever a change is, a wipe apart, at most one slot is written to. -/
theorem change_cases (arena : Arena) (change : Change) :
    change = .wipe ∧ arena.change change = arena.wipe ∨ arena.change change = arena ∨
      ∃ slot start bytes, arena.change change = arena.put slot start bytes := by
  cases change with
  | write slot start bytes =>
    by_cases fits : start + bytes.length ≤ arena.layout.size slot
    · exact .inr (.inr ⟨slot, start, bytes, change_write fits⟩)
    · refine .inr (.inl ?_)
      rw [Arena.change, make, write_of_exceeds fits]
      rfl
  | commit => exact .inr (.inr ⟨_, _, _, change_commit arena⟩)
  | restore => exact .inr (.inr ⟨_, _, _, change_restore arena⟩)
  | wipe => exact .inl ⟨rfl, rfl⟩

/-- No change gives the arena another layout. -/
theorem layout_change (arena : Arena) (change : Change) :
    (arena.change change).layout = arena.layout := by
  rcases change_cases arena change with ⟨_, wiped⟩ | same | ⟨slot, start, bytes, written⟩
  · rw [wiped, wipe]
  · rw [same]
  · rw [written, layout_put]

/-- No change gives the region another length. -/
theorem length_region_change (arena : Arena) (change : Change) :
    (arena.change change).region.length = arena.region.length := by
  rcases change_cases arena change with ⟨_, wiped⟩ | same | ⟨slot, start, bytes, written⟩
  · rw [wiped]
    exact List.length_replicate
  · rw [same]
  · rw [written]
    exact Bytes.length_overlayAt _ _ _

/-- Each slot holds the bytes of its buffer. -/
def Represents (arena : Arena) (buffers : Buffers) : Prop :=
  ∀ slot, arena.read slot = buffers slot

/-- An arena that is written to in one slot is written to in one buffer. -/
theorem Represents.put (represents : arena.Represents buffers) {slot : Slot} {start : Nat}
    {bytes fresh : Bytes} (result : Bytes.overlayAt start bytes (buffers slot) = fresh) :
    (arena.put slot start bytes).Represents (Function.update buffers slot fresh) := by
  intro other
  by_cases same : other = slot
  · subst same
    rw [read_put_self, represents, result, Function.update_self]
  · rw [read_put_of_ne _ _ _ (Ne.symm same), represents, Function.update_of_ne same]

/-- The buffer of a slot has the size of the slot. -/
theorem Represents.length (represents : arena.Represents buffers) (slot : Slot) :
    (buffers slot).length = arena.layout.size slot := by
  rw [← represents, length_read]

/-- A change that stays inside its slot changes the arena as it changes the buffers. -/
theorem Represents.change (represents : arena.Represents buffers) {change : Change}
    (inRange : change.InRange arena.layout) :
    (arena.change change).Represents (buffers.change change) := by
  cases change with
  | write slot start bytes =>
    have inside : start + bytes.length ≤ (buffers slot).length := by
      rw [represents.length]
      exact inRange
    rw [change_write inRange]
    exact represents.put (Bytes.overlayAt_of_inside inside)
  | commit =>
    have width : (buffers .live).length = (buffers .template).length := by
      rw [represents.length, represents.length, Layout.size, Layout.size]
    rw [change_commit, committed, represents]
    exact represents.put (Bytes.overlayAt_whole width)
  | restore =>
    have width : (buffers .template).length = (buffers .live).length := by
      rw [represents.length, represents.length, Layout.size, Layout.size]
    rw [change_restore, restored, represents]
    exact represents.put (Bytes.overlayAt_whole width)
  | wipe =>
    intro slot
    have inside := Nat.le_trans (arena.layout.slot_inside slot) arena.covered
    have rest : arena.layout.size slot ≤ arena.region.length - arena.layout.offset slot :=
      Nat.le_sub_of_add_le' inside
    calc (arena.change .wipe).read slot
        = Bytes.window (arena.layout.offset slot) (arena.layout.size slot)
            (List.replicate arena.region.length wipeByte) := rfl
      _ = List.replicate (arena.layout.size slot) wipeByte := by
        rw [Bytes.window, List.drop_replicate, List.take_replicate, Nat.min_eq_left rest]
      _ = buffers.change .wipe slot := by rw [← represents.length, Buffers.change]

/-- So do many changes, one after the other. -/
theorem Represents.changes (represents : arena.Represents buffers) {changes : List Change}
    (inRange : ∀ change ∈ changes, change.InRange arena.layout) :
    (changes.foldl Arena.change arena).Represents (changes.foldl Buffers.change buffers) := by
  induction changes generalizing arena buffers with
  | nil => exact represents
  | cons change rest inductionHypothesis =>
    refine inductionHypothesis (represents.change (inRange change List.mem_cons_self)) ?_
    intro later member
    rw [layout_change]
    exact inRange later (List.mem_cons_of_mem change member)

/-- Many changes leave the layout and the length of the region. -/
theorem kept_changes (arena : Arena) (changes : List Change) :
    (changes.foldl change arena).layout = arena.layout ∧
      (changes.foldl change arena).region.length = arena.region.length := by
  induction changes generalizing arena with
  | nil => exact ⟨rfl, rfl⟩
  | cons change rest inductionHypothesis =>
    obtain ⟨layout, width⟩ := inductionHypothesis (arena.change change)
    exact ⟨layout.trans (layout_change arena change),
      width.trans (length_region_change arena change)⟩

/-- A write does not reach a byte that belongs to no slot. -/
theorem getElem?_put_of_unused (arena : Arena) (slot : Slot) (start : Nat) (bytes : Bytes)
    {place : Nat} (unused : arena.layout.Unused place) :
    (arena.put slot start bytes).region[place]? = arena.region[place]? := by
  have outside := unused slot
  rw [put, Bytes.getElem?_overlayAt, if_neg]
  rw [List.length_take]
  omega

/-- Nor does anything but a wipe. -/
theorem getElem?_changes_of_unused (arena : Arena) {changes : List Change} {place : Nat}
    (unwiped : .wipe ∉ changes) (unused : arena.layout.Unused place) :
    (changes.foldl change arena).region[place]? = arena.region[place]? := by
  induction changes generalizing arena with
  | nil => rfl
  | cons change rest inductionHypothesis =>
    rw [List.mem_cons, not_or] at unwiped
    have step : (arena.change change).region[place]? = arena.region[place]? := by
      rcases change_cases arena change with ⟨wipes, _⟩ | same | ⟨slot, start, bytes, written⟩
      · exact absurd wipes.symm unwiped.1
      · rw [same]
      · rw [written]
        exact getElem?_put_of_unused arena slot start bytes unused
    have unusedAfter := (layout_change arena change).symm ▸ unused
    rw [List.foldl_cons, inductionHypothesis _ unwiped.2 unusedAfter, step]

/-- An arena of zero bytes stands for buffers of zero bytes. -/
theorem represents_zeros (zero : arena.region = Bytes.zeros arena.region.length) :
    arena.Represents
      (Buffers.zeros arena.layout.contextSize.toNat arena.layout.blockLength.toNat) := by
  intro slot
  rw [read_of_zeros zero]
  cases slot <;> rfl

/-- An arena for an accepted layout, whichever memory it has, is six buffers in one region: after
any changes inside the slots each slot holds what the same changes leave in a buffer of its own.
The slots lie in their order, aligned, inside the bytes of the layout; what belongs to none of
them is zero until a wipe, and a wipe reaches all of the region. -/
theorem region_is_buffers {contextSize blockLength alignment : UInt64} {layout : Layout}
    {strategy : Strategy} {machine : Machine} {arena : Arena}
    (accepted : Layout.ofSizes contextSize blockLength alignment = .ok layout)
    (granted : ofLayout layout strategy machine = .ok arena) {changes : List Change}
    (inRange : ∀ change ∈ changes, change.InRange layout) :
    let last := changes.foldl change arena
    let buffers :=
      changes.foldl Buffers.change (Buffers.zeros contextSize.toNat blockLength.toNat)
    (∀ slot, last.read slot = buffers slot) ∧
      layout.carve Slot.inOrder last.region = Slot.inOrder.map buffers ∧
      (Slot.inOrder.Pairwise fun first second =>
        layout.offset first + layout.size first ≤ layout.offset second) ∧
      (∀ slot, alignment.toNat ∣ layout.offset slot ∧
        layout.offset slot + layout.size slot ≤ layout.total.toNat) ∧
      layout.total.toNat ≤ last.region.length ∧
      (.wipe ∉ changes → ∀ place < last.region.length, layout.Unused place →
        last.region[place]? = some 0) ∧
      (last.change .wipe).region = List.replicate last.region.length wipeByte := by
  intro last buffers
  obtain ⟨power, rfl, rfl, rfl, _⟩ := Layout.ofSizes_ok accepted
  obtain ⟨rfl, zero⟩ := ofLayout_ok granted
  obtain ⟨kept, width⟩ := kept_changes arena changes
  have represents : last.Represents buffers := (represents_zeros zero).changes inRange
  refine ⟨represents, ?_, arena.layout.offsets_ordered, ?_, ?_, ?_, rfl⟩
  · have carved := carve_region last
    rwa [kept, funext represents] at carved
  · exact fun slot => ⟨Layout.dvd_offset accepted slot, arena.layout.slot_inside slot⟩
  · rw [width]
    exact arena.covered
  · intro unwiped place inside unused
    rw [width] at inside
    rw [getElem?_changes_of_unused arena unwiped unused, zero, Bytes.zeros,
      List.getElem?_replicate_of_lt inside]

/-- Contexts of five bytes and blocks of three, at multiples of four. A key is written and kept,
changed and brought back, and a block gets a last byte. -/
theorem region_is_buffers_padded :
    let layout : Layout := ⟨5, 3, 4, 8, 4, 32, by decide, by decide, by decide⟩
    let arena : Arena := ⟨layout, .standard, Bytes.zeros 32, by decide⟩
    let changes : List Change :=
      [.write .live 1 [1, 2], .commit, .write .live 0 [9, 9], .write .previous 2 [3], .restore]
    let last := changes.foldl change arena
    Slot.inOrder.map last.read =
        [[0, 1, 2, 0, 0], [0, 1, 2, 0, 0], [0, 0, 0], [0, 0, 3], [0, 0, 0], [0, 0, 0]] ∧
      last.region[5]? = some 0 ∧ (last.change .wipe).region = List.replicate 32 0xA5 := by
  intro layout arena changes last
  have accepted : Layout.ofSizes 5 3 4 = .ok layout := rfl
  have granted : ofLayout layout .standard .common = .ok arena := rfl
  have inRange : ∀ change ∈ changes, change.InRange layout := by
    simp [changes, Change.InRange, layout, Layout.size]
  obtain ⟨held, _, _, _, _, unused, wiped⟩ := region_is_buffers accepted granted inRange
  have behind : layout.Unused 5 := by
    intro slot
    cases slot <;> decide
  have total : last.region.length = 32 := (kept_changes arena changes).2
  rw [total] at unused wiped
  refine ⟨?_, unused (by decide) 5 (by decide) behind, wiped⟩
  rw [List.map_congr_left fun slot _ => held slot]
  decide

end Arena

end CipherEngine
