import CipherEngine.Proofs.Registry.Entries
import CipherEngine.Registry.Query
import Mathlib.Data.Multiset.Basic
import Mathlib.Data.Multiset.Count
import Mathlib.Logic.Relation

/-!
# The ledger of pins

A ledger is a registry together with the pins on it that are held outside. It balances if
every entry counts just the pins that are held on it, and one more if the registry holds it
itself, and if every pin that is held names an entry.

The operations on a registry are put together from five moves. Each keeps the balance, and
so a pin is only ever given back to an entry that counts it, and an entry is only ever taken
out with the last claim on it.
-/
namespace CipherEngine

variable {m : Type → Type}

/-- A registry and the pins that are held on it, in no order. -/
structure Ledger (m : Type → Type) where
  registry : Registry m
  held : Multiset (Pin m)

/-- The pins that the registry itself holds on an entry: one, if the algorithm is built in. -/
def Entry.ownPins [Monad m] (entry : Entry m) : Nat :=
  if entry.id ∈ (builtins (m := m)).map Prod.fst then 1 else 0

/-- The claims on an entry: the pins that are held on it, and the registry's own. -/
def Ledger.claims [Monad m] (ledger : Ledger m) (entry : Entry m) : Nat :=
  ledger.held.countP (fun pin => pin.serial = entry.serial) + entry.ownPins

namespace Ledger

variable [Monad m] {registry : Registry m} {held : Multiset (Pin m)}

/-- Every entry counts the claims on it and has one, and every held pin names an entry. Ids
ascend, and serial numbers are given once. -/
structure Balanced (ledger : Ledger m) : Prop where
  ascending : ledger.registry.entries.Pairwise fun entry later => entry.id < later.id
  distinct : ledger.registry.entries.Pairwise fun entry later => entry.serial ≠ later.serial
  issued : ∀ entry ∈ ledger.registry.entries, entry.serial < ledger.registry.nextSerial
  next : firstFreeId ≤ ledger.registry.nextId
  unprepared : ledger.registry.prepared = false → ledger.registry.entries = []
  counted : ∀ entry ∈ ledger.registry.entries, entry.pins = ledger.claims entry
  claimed : ∀ entry ∈ ledger.registry.entries, 0 < entry.pins
  registered : ∀ pin ∈ ledger.held, ∃ entry ∈ ledger.registry.entries, entry.pin = pin

/-- The single changes of a ledger. The built-in algorithms are installed; an algorithm is
entered under a free id, and its pin is held; an entry is pinned once more; an entry is
disabled; or a held pin is given back, to an entry that counts it, which goes only if no
claim on it is left. -/
inductive Move : Ledger m → Ledger m → Prop where
  | installed {registry : Registry m} {held : Multiset (Pin m)} :
    registry.prepared = false → Move ⟨registry, held⟩ ⟨registry.install, held⟩
  | entered {registry : Registry m} {held : Multiset (Pin m)} {id : AlgorithmId}
    (algorithm : Algorithm m) :
    registry.prepared = true → firstFreeId ≤ id → (∀ entry ∈ registry.entries, entry.id ≠ id) →
      Move ⟨registry, held⟩ ⟨{ registry.enter id algorithm with nextId := id + 1 },
        ⟨registry.nextSerial, id, algorithm⟩ ::ₘ held⟩
  | pinned {registry : Registry m} {held : Multiset (Pin m)} {entry : Entry m} :
    entry ∈ registry.entries →
      Move ⟨registry, held⟩ ⟨registry.addPin entry.serial, entry.pin ::ₘ held⟩
  | disabled {registry : Registry m} {held : Multiset (Pin m)} (serial : Nat) :
    Move ⟨registry, held⟩
      ⟨registry.modify serial fun entry => { entry with disabled := true }, held⟩
  | released {registry : Registry m} {held : Multiset (Pin m)} {entry : Entry m} :
    entry ∈ registry.entries → 0 < entry.pins →
      ((registry.release entry.pin).2 = true → claims ⟨registry, held⟩ entry = 0) →
        Move ⟨registry, entry.pin ::ₘ held⟩ ⟨(registry.release entry.pin).1, held⟩

namespace Balanced

/-- The entry of a pin is found by the pin. -/
theorem pinned? (balanced : Balanced ⟨registry, held⟩) {entry : Entry m}
    (present : entry ∈ registry.entries) : registry.pinned? entry.pin = some entry :=
  find?_of_distinct balanced.distinct present

/-- An entry is found by its id. -/
theorem find? (balanced : Balanced ⟨registry, held⟩) {entry : Entry m}
    (present : entry ∈ registry.entries) : registry.find? entry.id = some entry :=
  find?_of_distinct (balanced.ascending.imp Nat.ne_of_lt) present

/-- One more held pin is one more claim on its entry. -/
theorem claims_cons (pin : Pin m) (entry : Entry m) :
    claims ⟨registry, pin ::ₘ held⟩ entry =
      claims ⟨registry, held⟩ entry + if pin.serial = entry.serial then 1 else 0 := by
  simp only [claims, Multiset.countP_cons]
  omega

/-- The claims on an entry depend on what its pin names. -/
theorem claims_of_pin {entry other : Entry m} (same : other.pin = entry.pin) (ledger : Ledger m) :
    ledger.claims other = ledger.claims entry := by
  obtain ⟨serial, id, _⟩ := Pin.mk.inj same
  rw [claims, claims, Entry.ownPins, Entry.ownPins, serial, id]

/-- A change of one entry that keeps what its pin names keeps the balance, if the counts are
right after it. -/
theorem modify (balanced : Balanced ⟨registry, held⟩) {serial : Nat}
    {change : Entry m → Entry m} (keeps : ∀ entry, (change entry).pin = entry.pin)
    {after : Multiset (Pin m)}
    (changed : ∀ entry ∈ registry.entries, entry.serial = serial →
      (change entry).pins = claims ⟨registry, after⟩ entry ∧ 0 < (change entry).pins)
    (others : ∀ entry ∈ registry.entries, entry.serial ≠ serial →
      claims ⟨registry, after⟩ entry = claims ⟨registry, held⟩ entry)
    (registered : ∀ pin ∈ after, ∃ entry ∈ registry.entries, entry.pin = pin) :
    Balanced ⟨registry.modify serial change, after⟩ := by
  let changeOne (entry : Entry m) : Entry m := if entry.serial = serial then change entry else entry
  have samePin (entry : Entry m) : (changeOne entry).pin = entry.pin := by
    by_cases named : entry.serial = serial
    · rw [show changeOne entry = change entry from if_pos named, keeps]
    · rw [show changeOne entry = entry from if_neg named]
  have sameSerial (entry : Entry m) : (changeOne entry).serial = entry.serial :=
    congrArg Pin.serial (samePin entry)
  have sameId (entry : Entry m) : (changeOne entry).id = entry.id :=
    congrArg Pin.id (samePin entry)
  have entries : (registry.modify serial change).entries = registry.entries.map changeOne := rfl
  have counts (entry : Entry m) (present : entry ∈ registry.entries) :
      (changeOne entry).pins = claims ⟨registry, after⟩ entry ∧ 0 < (changeOne entry).pins := by
    by_cases named : entry.serial = serial
    · rw [show changeOne entry = change entry from if_pos named]
      exact changed entry present named
    · rw [show changeOne entry = entry from if_neg named, others entry present named]
      exact ⟨balanced.counted entry present, balanced.claimed entry present⟩
  constructor
  · rw [entries, List.pairwise_map]
    exact balanced.ascending.imp fun {entry later} before => by rwa [sameId, sameId]
  · rw [entries, List.pairwise_map]
    exact balanced.distinct.imp fun {entry later} differ => by rwa [sameSerial, sameSerial]
  · rw [entries, List.forall_mem_map]
    intro entry present
    rw [sameSerial]
    exact balanced.issued entry present
  · exact balanced.next
  · intro unprepared
    rw [entries, balanced.unprepared unprepared]
    rfl
  · rw [entries, List.forall_mem_map]
    intro entry present
    rw [claims_of_pin (samePin entry)]
    exact (counts entry present).1
  · rw [entries, List.forall_mem_map]
    exact fun entry present => (counts entry present).2
  · intro pin held
    obtain ⟨entry, present, rfl⟩ := registered pin held
    exact ⟨changeOne entry, List.mem_map_of_mem present, samePin entry⟩

/-- Entries of one serial number are the same. -/
theorem unique (balanced : Balanced ⟨registry, held⟩) {entry other : Entry m}
    (present : entry ∈ registry.entries) (otherPresent : other ∈ registry.entries)
    (same : other.serial = entry.serial) : other = entry := by
  have found := balanced.pinned? otherPresent
  rw [Registry.pinned?, show other.pin.serial = entry.pin.serial from same] at found
  exact Option.some.inj (found.symm.trans (balanced.pinned? present))

/-- Installing the built-in algorithms, which the registry holds itself, keeps the balance. -/
theorem install (balanced : Balanced ⟨registry, held⟩) (unprepared : registry.prepared = false) :
    Balanced ⟨registry.install, held⟩ := by
  obtain ⟨entries, nextId, nextSerial, prepared⟩ := registry
  obtain rfl : entries = [] := balanced.unprepared unprepared
  obtain rfl : held = 0 := Multiset.eq_zero_of_forall_notMem fun pin member => by
    obtain ⟨entry, present, _⟩ := balanced.registered pin member
    cases present
  constructor
  · simp [Registry.install, builtins, Registry.enter, insertEntry]
  · simp [Registry.install, builtins, Registry.enter, insertEntry]
    omega
  · simp [Registry.install, builtins, Registry.enter, insertEntry]
    omega
  · exact balanced.next
  · exact fun never => absurd never Bool.noConfusion
  · simp [Registry.install, builtins, Registry.enter, insertEntry, claims, Entry.ownPins]
  · simp [Registry.install, builtins, Registry.enter, insertEntry]
  · exact fun pin member => absurd member (Multiset.notMem_zero pin)

/-- An algorithm that is not built in, under a free id, keeps the balance with its pin. -/
theorem enter (balanced : Balanced ⟨registry, held⟩) {id : AlgorithmId} (algorithm : Algorithm m)
    (prepared : registry.prepared = true) (dynamic : firstFreeId ≤ id)
    (free : ∀ entry ∈ registry.entries, entry.id ≠ id) :
    Balanced ⟨{ registry.enter id algorithm with nextId := id + 1 },
      ⟨registry.nextSerial, id, algorithm⟩ ::ₘ held⟩ := by
  let entry : Entry m := ⟨registry.nextSerial, id, algorithm, false, 1⟩
  have permuted : (insertEntry entry registry.entries).Perm (entry :: registry.entries) :=
    insertEntry_perm free
  have fresh (pin : Pin m) (member : pin ∈ held) : pin.serial ≠ registry.nextSerial := by
    obtain ⟨other, present, rfl⟩ := balanced.registered pin member
    exact Nat.ne_of_lt (balanced.issued other present)
  have unclaimed : held.countP (fun pin => pin.serial = entry.serial) = 0 :=
    Multiset.countP_eq_zero.mpr fresh
  have foreign : entry.ownPins = 0 := by
    refine if_neg fun builtIn => absurd dynamic (Nat.not_le_of_lt ?_)
    exact (show ∀ builtin ∈ [7, 8, 9], builtin < firstFreeId by decide) id builtIn
  have counted : ∀ other ∈ entry :: registry.entries,
      other.pins = claims ⟨registry, entry.pin ::ₘ held⟩ other ∧ 0 < other.pins := by
    refine List.forall_mem_cons.mpr ⟨?_, fun other present => ?_⟩
    · rw [claims_cons, claims, unclaimed, foreign,
        if_pos (show entry.pin.serial = entry.serial from rfl)]
      exact ⟨rfl, Nat.one_pos⟩
    · have older : entry.pin.serial ≠ other.serial :=
        Nat.ne_of_gt (balanced.issued other present)
      rw [claims_cons, if_neg older]
      exact ⟨balanced.counted other present, balanced.claimed other present⟩
  constructor
  · exact insertEntry_ascending free balanced.ascending
  · refine (permuted.pairwise_iff fun differ => Ne.symm differ).mpr
      (List.pairwise_cons.mpr ⟨fun other present => ?_, balanced.distinct⟩)
    exact Nat.ne_of_gt (balanced.issued other present)
  · intro other present
    rcases List.mem_cons.mp (permuted.mem_iff.mp present) with rfl | older
    · exact Nat.lt_succ_self _
    · exact Nat.lt_succ_of_lt (balanced.issued other older)
  · exact dynamic.trans (Nat.le_succ id)
  · intro unprepared
    exact absurd (prepared.symm.trans unprepared) Bool.noConfusion
  · exact fun other present => (counted other (permuted.mem_iff.mp present)).1
  · exact fun other present => (counted other (permuted.mem_iff.mp present)).2
  · intro pin member
    rcases Multiset.mem_cons.mp member with rfl | older
    · exact ⟨entry, permuted.mem_iff.mpr List.mem_cons_self, rfl⟩
    · obtain ⟨other, present, same⟩ := balanced.registered pin older
      exact ⟨other, permuted.mem_iff.mpr (List.mem_cons_of_mem entry present), same⟩

/-- One more pin on an entry keeps the balance, if it is held. -/
theorem addPin (balanced : Balanced ⟨registry, held⟩) {entry : Entry m}
    (present : entry ∈ registry.entries) :
    Balanced ⟨registry.addPin entry.serial, entry.pin ::ₘ held⟩ := by
  refine balanced.modify ?_ (fun other there named => ?_) (fun other _ foreign => ?_)
    fun pin member => ?_
  · exact fun _ => rfl
  · rw [claims_cons, if_pos (show entry.pin.serial = other.serial from named.symm)]
    exact ⟨congrArg (· + 1) (balanced.counted other there), Nat.succ_pos _⟩
  · rw [claims_cons, if_neg (show entry.pin.serial ≠ other.serial from Ne.symm foreign)]
    rfl
  · rcases Multiset.mem_cons.mp member with rfl | older
    · exact ⟨entry, present, rfl⟩
    · exact balanced.registered pin older

/-- Disabling an entry keeps the balance. -/
theorem disable (balanced : Balanced ⟨registry, held⟩) (serial : Nat) :
    Balanced ⟨registry.modify serial fun entry => { entry with disabled := true }, held⟩ := by
  refine balanced.modify ?_ (fun entry present _ => ?_) (fun _ _ _ => rfl) balanced.registered
  · exact fun _ => rfl
  · exact ⟨balanced.counted entry present, balanced.claimed entry present⟩

/-- What is left of the entries after a pin on one is given back. -/
theorem release_eq (balanced : Balanced ⟨registry, held⟩) {entry : Entry m}
    (present : entry ∈ registry.entries) :
    registry.release entry.pin =
      if entry.pins = 1 then
        ({ registry with
          entries := registry.entries.filter fun other => other.serial ≠ entry.serial }, true)
      else
        (registry.modify entry.serial fun entry => { entry with pins := entry.pins - 1 },
          false) := by
  rw [Registry.release, balanced.pinned? present]
  rfl

/-- An entry goes only with the last claim on it. -/
theorem last_claim {entry : Entry m} (balanced : Balanced ⟨registry, entry.pin ::ₘ held⟩)
    (present : entry ∈ registry.entries) (removed : (registry.release entry.pin).2 = true) :
    claims ⟨registry, held⟩ entry = 0 := by
  have counted := balanced.counted entry present
  rw [claims_cons, if_pos (show entry.pin.serial = entry.serial from rfl)] at counted
  rw [balanced.release_eq present] at removed
  split at removed
  · omega
  · cases removed

/-- A pin that is given back keeps the balance. -/
theorem release {entry : Entry m} (balanced : Balanced ⟨registry, entry.pin ::ₘ held⟩)
    (present : entry ∈ registry.entries) :
    Balanced ⟨(registry.release entry.pin).1, held⟩ := by
  have others (other : Entry m) (foreign : other.serial ≠ entry.serial) :
      claims ⟨registry, held⟩ other = claims ⟨registry, entry.pin ::ₘ held⟩ other := by
    rw [claims_cons, if_neg (show entry.pin.serial ≠ other.serial from Ne.symm foreign)]
    rfl
  have counted := balanced.counted entry present
  rw [claims_cons, if_pos (show entry.pin.serial = entry.serial from rfl)] at counted
  have registered (pin : Pin m) (member : pin ∈ held) :=
    balanced.registered pin (Multiset.mem_cons_of_mem member)
  rw [balanced.release_eq present]
  split
  · next last =>
    -- One pin was counted and it is given back, so no other claim is lost with the entry.
    have unclaimed : held.countP (fun pin => pin.serial = entry.serial) = 0 := by
      have none : claims ⟨registry, held⟩ entry = 0 := by
        omega
      exact (Nat.add_eq_zero_iff.mp none).1
    have kept (other : Entry m)
        (left : other ∈ registry.entries.filter fun other => other.serial ≠ entry.serial) :
        other ∈ registry.entries ∧ other.serial ≠ entry.serial := by
      simpa using left
    constructor
    · exact balanced.ascending.filter _
    · exact balanced.distinct.filter _
    · exact fun other left => balanced.issued other (kept other left).1
    · exact balanced.next
    · intro unprepared
      have none := balanced.unprepared unprepared
      change registry.entries = [] at none
      rw [none] at present
      cases present
    · intro other left
      obtain ⟨there, foreign⟩ := kept other left
      exact (balanced.counted other there).trans (others other foreign).symm
    · exact fun other left => balanced.claimed other (kept other left).1
    · intro pin member
      obtain ⟨other, there, rfl⟩ := registered pin member
      have foreign : other.serial ≠ entry.serial := Multiset.countP_eq_zero.mp unclaimed _ member
      exact ⟨other, by simpa using ⟨there, foreign⟩, rfl⟩
  · next more =>
    have positive := balanced.claimed entry present
    refine balanced.modify ?_ (fun other there named => ?_)
      (fun other _ foreign => others other foreign) registered
    · exact fun _ => rfl
    · obtain rfl := balanced.unique present there named
      change other.pins - 1 = _ ∧ 0 < other.pins - 1
      omega

/-- An entry has the serial number of another just when it has its id. -/
theorem serial_eq_iff (balanced : Balanced ⟨registry, held⟩) {entry other : Entry m}
    (present : entry ∈ registry.entries) (otherPresent : other ∈ registry.entries) :
    other.serial = entry.serial ↔ other.id = entry.id := by
  refine ⟨fun same => congrArg Entry.id (balanced.unique present otherPresent same), fun same => ?_⟩
  have found := balanced.find? otherPresent
  rw [same] at found
  exact congrArg Entry.serial (Option.some.inj (found.symm.trans (balanced.find? present)))

/-- With one more pin an entry refuses handles as before. -/
theorem addPin_refusesHandles (balanced : Balanced ⟨registry, held⟩) {entry : Entry m}
    (present : entry ∈ registry.entries) :
    (registry.addPin entry.serial).refusesHandles entry.pin = entry.disabled := by
  have found := (balanced.addPin present).pinned? (Registry.mem_addPin present)
  change (registry.addPin entry.serial).pinned? entry.pin = _ at found
  rw [Registry.refusesHandles, found]

/-- A pin that is taken and given back leaves the registry as it was. -/
theorem addPin_dropPin (balanced : Balanced ⟨registry, held⟩) {entry : Entry m}
    (present : entry ∈ registry.entries) :
    ((registry.addPin entry.serial).dropPin entry.pin).registry = registry := by
  -- The entry had a pin before, so the new one is not the last.
  have more : entry.pins + 1 ≠ 1 := by
    have positive := balanced.claimed entry present
    change 0 < entry.pins at positive
    omega
  have released := (balanced.addPin present).release_eq (Registry.mem_addPin present)
  rw [if_neg more] at released
  change (registry.addPin entry.serial).release entry.pin = _ at released
  rw [Registry.dropPin, released]
  refine (Registry.modify_modify registry entry.serial _ _ ?_).trans ?_
  · exact fun _ => rfl
  · change registry.modify entry.serial id = registry
    simp [Registry.modify]

/-- A pin that is given back is counted no more. -/
theorem pinCount_dropPin {pin : Pin m} (balanced : Balanced ⟨registry, pin ::ₘ held⟩) :
    registry.pinCount pin = (registry.dropPin pin).registry.pinCount pin + 1 := by
  obtain ⟨entry, present, rfl⟩ := balanced.registered pin (Multiset.mem_cons_self pin held)
  have left : (registry.dropPin entry.pin).registry = (registry.release entry.pin).1 := by
    rw [Registry.dropPin]
    split <;> next same => rw [same]
  have before : registry.pinCount entry.pin = entry.pins := by
    rw [Registry.pinCount, balanced.pinned? present]
  have released := balanced.release present
  rw [before, left]
  rw [balanced.release_eq present] at released ⊢
  split
  · next last =>
    have gone : Registry.pinned? { registry with
        entries := registry.entries.filter fun other => other.serial ≠ entry.serial }
        entry.pin = none := by
      refine List.find?_eq_none.mpr fun other kept => ?_
      have differs : other.serial ≠ entry.serial := by simpa using (List.mem_filter.mp kept).2
      exact fun same => differs (of_decide_eq_true same)
    rw [Registry.pinCount, gone, last]
  · next more =>
    rw [if_neg more] at released
    have counts := balanced.claimed entry present
    change 0 < entry.pins at counts
    have kept : { entry with pins := entry.pins - 1 } ∈
        (registry.modify entry.serial fun entry => { entry with pins := entry.pins - 1 }).entries :=
      List.mem_map.mpr ⟨entry, present, if_pos rfl⟩
    have found := released.pinned? kept
    change Registry.pinned? _ entry.pin = _ at found
    rw [Registry.pinCount, found]
    exact (Nat.sub_add_cancel counts).symm

end Balanced

/-- Every move keeps the balance. -/
theorem Move.balanced {ledger other : Ledger m} (move : Move ledger other)
    (balanced : ledger.Balanced) : other.Balanced := by
  cases move with
  | installed unprepared => exact balanced.install unprepared
  | entered algorithm prepared dynamic free => exact balanced.enter algorithm prepared dynamic free
  | pinned present => exact balanced.addPin present
  | disabled serial => exact balanced.disable serial
  | released present _ _ => exact balanced.release present

/-- Moves, one after another. -/
def Moves (ledger other : Ledger m) : Prop := Relation.ReflTransGen Move ledger other

/-- Moves keep the balance. -/
theorem Moves.balanced {ledger other : Ledger m} (moves : Moves ledger other)
    (balanced : ledger.Balanced) : other.Balanced := by
  induction moves with
  | refl => exact balanced
  | tail _ move inductionHypothesis => exact move.balanced inductionHypothesis

/-- An entry stays, whatever its count becomes, unless the last claim on it goes. -/
theorem Move.stays {ledger other : Ledger m} (move : Move ledger other)
    (balanced : ledger.Balanced) {entry : Entry m} (present : entry ∈ ledger.registry.entries) :
    (∃ after ∈ other.registry.entries, after.pin = entry.pin) ∨ other.claims entry = 0 := by
  have modified {registry : Registry m} (present : entry ∈ registry.entries) (serial : Nat)
      {change : Entry m → Entry m} (keeps : ∀ entry, (change entry).pin = entry.pin) :
      ∃ after ∈ (registry.modify serial change).entries, after.pin = entry.pin := by
    refine ⟨_, List.mem_map_of_mem present, ?_⟩
    split
    · exact keeps entry
    · rfl
  cases move with
  | installed unprepared =>
    have none := balanced.unprepared unprepared
    rw [none] at present
    cases present
  | entered algorithm prepared dynamic free =>
    exact .inl ⟨entry, (insertEntry_perm free).mem_iff.mpr (List.mem_cons_of_mem _ present), rfl⟩
  | pinned => exact .inl (modified present _ fun _ => rfl)
  | disabled serial => exact .inl (modified present serial fun _ => rfl)
  | @released registry held given there _ last =>
    rw [balanced.release_eq there] at last ⊢
    split
    · next only =>
      rw [if_pos only] at last
      by_cases same : entry.serial = given.serial
      · obtain rfl := balanced.unique there present same
        exact .inr (last rfl)
      · exact .inl ⟨entry, by simpa using ⟨present, same⟩, rfl⟩
    · exact .inl (modified present _ fun _ => rfl)

/-- The built-in algorithms are there once the registry is prepared. -/
def Equipped (ledger : Ledger m) : Prop :=
  ledger.registry.prepared = true → ∀ builtin ∈ builtins (m := m),
    ∃ entry ∈ ledger.registry.entries, entry.id = builtin.1 ∧ entry.algorithm = builtin.2

/-- They stay there, since the registry holds a pin on each. -/
theorem Move.equipped {ledger other : Ledger m} (move : Move ledger other)
    (balanced : ledger.Balanced) (equipped : ledger.Equipped) : other.Equipped := by
  have stays (prepared : ledger.registry.prepared = true) : other.Equipped := by
    intro _ builtin listed
    obtain ⟨entry, present, id, algorithm⟩ := equipped prepared builtin listed
    have own : entry.ownPins = 1 :=
      if_pos (id ▸ List.mem_map_of_mem listed)
    rcases move.stays balanced present with ⟨after, there, same⟩ | unclaimed
    · exact ⟨after, there, (congrArg Pin.id same).trans id,
        (congrArg Pin.algorithm same).trans algorithm⟩
    · rw [claims, own] at unclaimed
      cases unclaimed
  cases move with
  | @installed registry held unprepared =>
    -- Here the registry is not prepared before, and only now gets the algorithms.
    obtain ⟨entries, nextId, nextSerial, prepared⟩ := registry
    obtain rfl : entries = [] := balanced.unprepared unprepared
    intro _ builtin listed
    simp only [builtins, List.mem_cons, List.not_mem_nil, or_false] at listed
    rcases listed with rfl | rfl | rfl <;>
      simp [Registry.install, builtins, Registry.enter, insertEntry]
  | entered algorithm prepared dynamic free => exact stays prepared
  | pinned => exact fun prepared => stays prepared prepared
  | disabled serial => exact fun prepared => stays prepared prepared
  | released there =>
    refine fun prepared => stays ?_ prepared
    rw [balanced.release_eq there] at prepared
    split at prepared <;> exact prepared

/-- So moves keep them. -/
theorem Moves.equipped {ledger other : Ledger m} (moves : Moves ledger other)
    (balanced : ledger.Balanced) (equipped : ledger.Equipped) : other.Equipped := by
  induction moves with
  | refl => exact equipped
  | tail earlier move inductionHypothesis =>
    exact move.equipped (Moves.balanced earlier balanced) inductionHypothesis

/-! ## Operations on the registry -/

/-- If the ledger balances, moves lead from it to the other. -/
def Leads (ledger other : Ledger m) : Prop := ledger.Balanced → Moves ledger other

namespace Leads

/-- A ledger leads to itself. -/
theorem refl (ledger : Ledger m) : Leads ledger ledger := fun _ => Relation.ReflTransGen.refl

/-- What is led to on the way leads on, as the account is balanced there. -/
theorem trans {ledger middle other : Ledger m} (first : Leads ledger middle)
    (second : Leads middle other) : Leads ledger other := fun balanced =>
  (first balanced).trans (second ((first balanced).balanced balanced))

/-- Making the registry ready changes no held pin. -/
theorem prepare (registry : Registry m) (held : Multiset (Pin m)) :
    Leads ⟨registry, held⟩ ⟨registry.prepare.registry, held⟩ := by
  rw [Registry.prepare]
  split
  · exact refl _
  · next unprepared =>
    exact fun _ => .single (.installed (Bool.eq_false_iff.mpr unprepared))

/-- Looking something up by other means than a pin changes no held pin. -/
theorem inspect (registry : Registry m) (held : Multiset (Pin m)) {α : Type}
    (view : Registry m → α) : Leads ⟨registry, held⟩ ⟨(registry.inspect view).registry, held⟩ :=
  prepare registry held

/-- Asking about an algorithm changes no held pin. -/
theorem ask (registry : Registry m) (held : Multiset (Pin m)) {α : Type} (id : AlgorithmId)
    (question : Algorithm m → Verdict α) :
    Leads ⟨registry, held⟩ ⟨(registry.ask id question).registry, held⟩ := by
  have ready := prepare registry held
  rw [Registry.ask]
  split
  · exact ready
  · split <;> exact ready

/-- Disabling changes no held pin. -/
theorem disable (registry : Registry m) (held : Multiset (Pin m)) (id : AlgorithmId) :
    Leads ⟨registry, held⟩ ⟨(registry.disable id).registry, held⟩ := by
  have ready := prepare registry held
  rw [Registry.disable]
  split
  · exact ready
  · next entry _ => exact ready.trans fun _ => .single (.disabled entry.serial)

/-- A lookup that finds an entry returns a pin on it, which is then held. -/
theorem lookup (registry : Registry m) (held : Multiset (Pin m))
    {search : Registry m → Option (Entry m)}
    (finds : ∀ registry entry, search registry = some entry → entry ∈ registry.entries) :
    Leads ⟨registry, held⟩ ⟨(registry.lookup search).registry,
      (registry.lookup search).value.elim held (· ::ₘ held)⟩ := by
  have ready := prepare registry held
  rw [Registry.lookup]
  split
  · exact ready
  · next entry found => exact ready.trans fun _ => .single (.pinned (finds _ _ found))

/-- An id is looked up among the entries. -/
theorem lookupId (registry : Registry m) (held : Multiset (Pin m)) (id : AlgorithmId) :
    Leads ⟨registry, held⟩ ⟨(registry.lookupId id).registry,
      (registry.lookupId id).value.elim held (· ::ₘ held)⟩ :=
  lookup registry held fun _ _ found => List.mem_of_find?_eq_some found

/-- A name is looked up among the entries. -/
theorem lookupName (registry : Registry m) (held : Multiset (Pin m)) (name : String) :
    Leads ⟨registry, held⟩ ⟨(registry.lookupName name).registry,
      (registry.lookupName name).value.elim held (· ::ₘ held)⟩ :=
  lookup registry held fun _ _ found => List.mem_of_find?_eq_some found

/-- An object identifier is looked up among the entries. -/
theorem lookupOid (registry : Registry m) (held : Multiset (Pin m)) (oid : String) :
    Leads ⟨registry, held⟩ ⟨(registry.lookupOid oid).registry,
      (registry.lookupOid oid).value.elim held (· ::ₘ held)⟩ :=
  lookup registry held fun _ _ found => List.mem_of_find?_eq_some found

/-- A registration returns a pin, which is then held, or changes nothing. -/
theorem register (registry : Registry m) (held : Multiset (Pin m)) (algorithm : Algorithm m) :
    Leads ⟨registry, held⟩ ⟨(registry.register algorithm).registry,
      match (registry.register algorithm).value with
      | .error _ => held
      | .ok pin => pin ::ₘ held⟩ := by
  have ready := prepare registry held
  rw [Registry.register]
  split
  · refine ready.trans fun balanced => .single (.entered algorithm registry.prepared_prepare ?_ ?_)
    · exact balanced.next.trans (Registry.le_freeId _ _)
    · exact Registry.freeId_free balanced.ascending
  · exact ready

/-- A pin that is held may be copied. -/
theorem copyPin (registry : Registry m) {held : Multiset (Pin m)} {pin : Pin m}
    (member : pin ∈ held) :
    Leads ⟨registry, held⟩ ⟨(registry.copyPin pin).registry, pin ::ₘ held⟩ := by
  intro balanced
  obtain ⟨entry, present, rfl⟩ := balanced.registered pin member
  exact .single (.pinned present)

/-- A pin that is given back is held no more. -/
theorem release (registry : Registry m) (held : Multiset (Pin m)) (pin : Pin m) :
    Leads ⟨registry, pin ::ₘ held⟩ ⟨(registry.release pin).1, held⟩ := by
  intro balanced
  obtain ⟨entry, present, rfl⟩ := balanced.registered pin (Multiset.mem_cons_self pin held)
  exact .single (.released present (balanced.claimed entry present)
    (balanced.last_claim present))

/-- Dropping a pin that is held moves the account by one release. -/
theorem dropPin (registry : Registry m) (held : Multiset (Pin m)) (pin : Pin m) :
    Leads ⟨registry, pin ::ₘ held⟩ ⟨(registry.dropPin pin).registry, held⟩ := by
  have given := release registry held pin
  rw [Registry.dropPin]
  split
  · next left _ same => rwa [same] at given
  · next left same => rwa [same] at given

/-- And so does giving it back through the registry, which only logs more. -/
theorem withdraw (registry : Registry m) (held : Multiset (Pin m)) (pin : Pin m) :
    Leads ⟨registry, pin ::ₘ held⟩ ⟨(registry.withdraw pin).registry, held⟩ :=
  dropPin registry held pin

end Leads

end Ledger

end CipherEngine
