import CipherEngine.Registry.Basic
import Mathlib.Data.List.Perm.Basic

/-!
# The list of entries

The entries of a registry ascend by id, and no two have one serial number. So a search by
id or by serial number finds the one entry it can mean, a new entry goes to one place, and
one walk finds the next id that is free.
-/
namespace CipherEngine

variable {m : Type → Type}

/-- Where no two values have one key, a search by key finds the value. -/
theorem find?_of_distinct {α β : Type} [DecidableEq β] {key : α → β} {values : List α}
    (distinct : values.Pairwise fun value later => key value ≠ key later) {value : α}
    (present : value ∈ values) :
    values.find? (fun other => key other = key value) = some value := by
  induction values with
  | nil => cases present
  | cons first rest inductionHypothesis =>
    obtain ⟨differs, restDistinct⟩ := List.pairwise_cons.mp distinct
    rcases List.mem_cons.mp present with rfl | later
    · simp
    · rw [List.find?_cons_of_neg (by simpa using differs value later)]
      exact inductionHypothesis restDistinct later

/-- An entry whose id is free is put among the others. -/
theorem insertEntry_perm {entry : Entry m} {entries : List (Entry m)}
    (free : ∀ other ∈ entries, other.id ≠ entry.id) :
    (insertEntry entry entries).Perm (entry :: entries) := by
  induction entries with
  | nil => exact .refl _
  | cons first rest inductionHypothesis =>
    obtain ⟨differs, restFree⟩ := List.forall_mem_cons.mp free
    rw [insertEntry]
    split
    · exact .refl _
    · rw [if_neg (Ne.symm differs)]
      exact ((inductionHypothesis restFree).cons first).trans (.swap entry first rest)

/-- Nothing but the entry is new. -/
theorem eq_or_mem_of_mem_insertEntry {entry other : Entry m} {entries : List (Entry m)}
    (present : other ∈ insertEntry entry entries) : other = entry ∨ other ∈ entries := by
  induction entries with
  | nil => exact .inl (List.mem_singleton.mp present)
  | cons first rest inductionHypothesis =>
    rw [insertEntry] at present
    split at present
    · exact List.mem_cons.mp present
    · split at present
      · exact .inr present
      · rcases List.mem_cons.mp present with rfl | later
        · exact .inr List.mem_cons_self
        · exact (inductionHypothesis later).imp_right (List.mem_cons_of_mem first)

/-- It is put at its place. -/
theorem insertEntry_ascending {entry : Entry m} {entries : List (Entry m)}
    (free : ∀ other ∈ entries, other.id ≠ entry.id)
    (ascending : entries.Pairwise fun entry later => entry.id < later.id) :
    (insertEntry entry entries).Pairwise fun entry later => entry.id < later.id := by
  induction entries with
  | nil => exact List.pairwise_singleton _ _
  | cons first rest inductionHypothesis =>
    obtain ⟨differs, restFree⟩ := List.forall_mem_cons.mp free
    obtain ⟨least, restAscending⟩ := List.pairwise_cons.mp ascending
    rw [insertEntry]
    split
    · next before =>
      refine List.pairwise_cons.mpr ⟨fun other present => ?_, ascending⟩
      rcases List.mem_cons.mp present with rfl | later
      · exact before
      · exact Nat.lt_trans before (least other later)
    · next notBefore =>
      rw [if_neg (Ne.symm differs)]
      refine List.pairwise_cons.mpr ⟨fun other present => ?_,
        inductionHypothesis restFree restAscending⟩
      rcases List.mem_cons.mp ((insertEntry_perm restFree).mem_iff.mp present) with rfl | later
      · exact Nat.lt_of_le_of_ne (Nat.le_of_not_lt notBefore) differs
      · exact least other later

namespace Registry

/-- A candidate that no entry has is taken. -/
theorem freeId_of_free {candidate : AlgorithmId} {entries : List (Entry m)}
    (free : ∀ entry ∈ entries, entry.id ≠ candidate) : freeId candidate entries = candidate := by
  induction entries with
  | nil => rfl
  | cons first rest inductionHypothesis =>
    obtain ⟨differs, restFree⟩ := List.forall_mem_cons.mp free
    rw [freeId, if_neg differs]
    exact inductionHypothesis restFree

/-- The next id is not below the candidate. -/
theorem le_freeId (candidate : AlgorithmId) (entries : List (Entry m)) :
    candidate ≤ freeId candidate entries := by
  induction entries generalizing candidate with
  | nil => exact Nat.le_refl _
  | cons first rest inductionHypothesis =>
    rw [freeId]
    split
    · exact Nat.le_trans (Nat.le_succ candidate) (inductionHypothesis (candidate + 1))
    · exact inductionHypothesis candidate

/-- The next id is free. -/
theorem freeId_free {candidate : AlgorithmId} {entries : List (Entry m)}
    (ascending : entries.Pairwise fun entry later => entry.id < later.id) :
    ∀ entry ∈ entries, entry.id ≠ freeId candidate entries := by
  induction entries generalizing candidate with
  | nil => exact fun _ present => absurd present List.not_mem_nil
  | cons first rest inductionHypothesis =>
    obtain ⟨least, restAscending⟩ := List.pairwise_cons.mp ascending
    rw [freeId]
    refine List.forall_mem_cons.mpr ⟨?_, inductionHypothesis restAscending⟩
    split
    · next same =>
      rw [same]
      exact Nat.ne_of_lt (le_freeId (candidate + 1) rest)
    · next differs =>
      -- An id above the candidate leaves it free; one below is below what is found.
      rcases Nat.lt_or_gt_of_ne differs with below | above
      · exact Nat.ne_of_lt (Nat.lt_of_lt_of_le below (le_freeId candidate rest))
      · rw [freeId_of_free fun entry present =>
          Nat.ne_of_gt (Nat.lt_trans above (least entry present))]
        exact differs

/-- Two changes of an entry are one, if the first keeps its serial number. -/
theorem modify_modify (registry : Registry m) (serial : Nat) (change later : Entry m → Entry m)
    (keeps : ∀ entry, (change entry).serial = entry.serial) :
    (registry.modify serial change).modify serial later =
      registry.modify serial (later ∘ change) := by
  simp only [modify, List.map_map]
  congr 1
  refine List.map_congr_left fun entry _ => ?_
  by_cases named : entry.serial = serial <;> simp [named, keeps]

/-- An entry that gets one more pin has it. -/
theorem mem_addPin {registry : Registry m} {entry : Entry m} (present : entry ∈ registry.entries) :
    { entry with pins := entry.pins + 1 } ∈ (registry.addPin entry.serial).entries :=
  List.mem_map.mpr ⟨entry, present, if_pos rfl⟩

end Registry

end CipherEngine
