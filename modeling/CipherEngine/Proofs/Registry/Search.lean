import CipherEngine.Proofs.Registry.Ledger

/-!
# What searches find

A lookup pins what a search finds in the registry once it is ready. By id it finds what is
listed. By a name or an object identifier it finds the first entry that answers, and where the
built-in algorithms are in place, below all others, those come first.
-/
namespace CipherEngine.Registry

variable {m : Type → Type} {registry : Registry m} {id : AlgorithmId} {entry : Entry m}

/-- What is found under an id is registered, and has the id. -/
theorem mem_of_find? (found : registry.find? id = some entry) :
    entry ∈ registry.entries ∧ entry.id = id :=
  ⟨List.mem_of_find?_eq_some found, by simpa using List.find?_some found⟩

/-- Where ids ascend, it is what is registered under the id. -/
theorem find?_eq_some_iff
    (ascending : registry.entries.Pairwise fun entry later => entry.id < later.id) :
    registry.find? id = some entry ↔ entry ∈ registry.entries ∧ entry.id = id := by
  refine ⟨mem_of_find?, ?_⟩
  rintro ⟨present, rfl⟩
  exact find?_of_distinct (ascending.imp Nat.ne_of_lt) present

/-- The ids in use are those under which something is found. -/
theorem mem_ids_iff : id ∈ registry.ids ↔ ∃ entry, registry.find? id = some entry := by
  rw [← Option.isSome_iff_exists, find?, List.find?_isSome, ids, List.mem_map]
  simp

/-- A change that keeps the ids is found where it was made. -/
theorem find?_modify (registry : Registry m) (serial : Nat) {change : Entry m → Entry m}
    (keeps : ∀ entry, (change entry).id = entry.id) (id : AlgorithmId) :
    (registry.modify serial change).find? id =
      (registry.find? id).map fun entry =>
        if entry.serial = serial then change entry else entry := by
  rw [find?, modify, List.find?_map]
  congr 2
  funext entry
  by_cases named : entry.serial = serial <;> simp [named, keeps]

variable [Monad m]

/-- A lookup returns a pin on what its search finds. -/
theorem lookup_value (registry : Registry m) (search : Registry m → Option (Entry m)) :
    (registry.lookup search).value = (search registry.prepare.registry).map Entry.pin := by
  rw [lookup]
  split
  · next found => rw [found]; rfl
  · next found => rw [found]; rfl

/-! ## Built-in algorithms -/

/-- The built-in algorithms are in place, and no other entry has an id that is reserved. -/
structure Stocked (registry : Registry m) : Prop where
  ascending : registry.entries.Pairwise fun entry later => entry.id < later.id
  present : ∀ builtin ∈ builtins (m := m), ∃ entry ∈ registry.entries,
    entry.id = builtin.1 ∧ entry.algorithm = builtin.2
  reserved : ∀ entry ∈ registry.entries, entry.id < firstFreeId →
    (entry.id, entry.algorithm) ∈ builtins (m := m)

/-- The ids of built-in algorithms are below the others. -/
theorem builtin_lt {builtin : AlgorithmId × Algorithm m} (listed : builtin ∈ builtins (m := m)) :
    builtin.1 < firstFreeId := by
  have small : ∀ id ∈ [7, 8, 9], id < firstFreeId := by decide
  exact small builtin.1 (List.mem_map_of_mem (f := Prod.fst) listed)

namespace Stocked

variable {builtin : AlgorithmId × Algorithm m}

/-- Under the id of a built-in algorithm is the algorithm. -/
theorem find? (stocked : registry.Stocked) (listed : builtin ∈ builtins (m := m)) :
    ∃ entry, registry.find? builtin.1 = some entry ∧ entry.algorithm = builtin.2 := by
  obtain ⟨entry, present, id, algorithm⟩ := stocked.present builtin listed
  exact ⟨entry, (find?_eq_some_iff stocked.ascending).mpr ⟨present, id⟩, algorithm⟩

/-- Before the entry of a built-in algorithm there are only others that are built in. -/
theorem split (stocked : registry.Stocked) (present : entry ∈ registry.entries)
    (small : entry.id < firstFreeId) :
    ∃ before after, registry.entries = before ++ entry :: after ∧
      ∀ earlier ∈ before, ∃ other ∈ builtins (m := m),
        other.1 < entry.id ∧ earlier.algorithm = other.2 := by
  obtain ⟨before, after, split⟩ := List.append_of_mem present
  refine ⟨before, after, split, fun earlier there => ?_⟩
  have ascending := stocked.ascending
  rw [split, List.pairwise_append] at ascending
  have less : earlier.id < entry.id := ascending.2.2 earlier there entry List.mem_cons_self
  have registered : earlier ∈ registry.entries := split ▸ List.mem_append_left _ there
  exact ⟨_, stocked.reserved earlier registered (Nat.lt_trans less small), less, rfl⟩

/-- A search that a built-in algorithm answers, and none before it, finds its entry. -/
theorem find?_builtin (stocked : registry.Stocked) (answers : Algorithm m → Bool)
    (present : entry ∈ registry.entries) (small : entry.id < firstFreeId)
    (holds : answers entry.algorithm = true)
    (first : ∀ other ∈ builtins (m := m), other.1 < entry.id → answers other.2 = false) :
    registry.entries.find? (fun entry => answers entry.algorithm) = some entry := by
  obtain ⟨before, after, split, builtIn⟩ := stocked.split present small
  refine List.find?_eq_some_iff_append.mpr ⟨holds, before, after, split, ?_⟩
  intro earlier there
  obtain ⟨other, listed, less, same⟩ := builtIn earlier there
  rw [same, first other listed less]
  rfl

/-- And so does one for what an algorithm shows. -/
theorem findSome?_builtin (stocked : registry.Stocked) {α : Type}
    (view : Algorithm m → Option α) {value : α} (present : entry ∈ registry.entries)
    (small : entry.id < firstFreeId) (holds : view entry.algorithm = some value)
    (first : ∀ other ∈ builtins (m := m), other.1 < entry.id → view other.2 = none) :
    registry.entries.findSome? (fun entry => view entry.algorithm) = some value := by
  obtain ⟨before, after, split, builtIn⟩ := stocked.split present small
  refine List.findSome?_eq_some_iff.mpr ⟨before, entry, after, split, holds, ?_⟩
  intro earlier there
  obtain ⟨other, listed, less, same⟩ := builtIn earlier there
  rw [same]
  exact first other listed less

end Stocked

end CipherEngine.Registry
