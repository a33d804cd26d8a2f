import CipherEngine.Proofs.Registry.Search
import CipherEngine.Proofs.Session.Run
import CipherEngine.Proofs.Specimen

/-!
# Ids are given once

In a run on a new registry every registration gets the next id, from the first that is not
reserved on, whatever has been removed meanwhile, until the ids are used up. So an id stands for
one registration, at any time of the run, or for one built-in algorithm; and what is listed is
what can be looked up.
-/
namespace CipherEngine.Session

open Registry

variable {m : Type → Type} [Monad m]

/-- What ids stand for after a run. -/
structure Identified (history : List (Command m × Step m)) (session : Session m) : Prop where
  /-- Registrations got the ids in order, counted from zero. -/
  inOrder : ∀ place grant, (grants history)[place]? = some grant → grant.id = firstFreeId + place
  /-- A further registration gets the next id, while there is one. -/
  granted : firstFreeId + (grants history).length + 1 < idLimit → ∀ algorithm keepAs,
    (Command.register algorithm keepAs).grant? (session.register algorithm keepAs).answer =
      some ⟨firstFreeId + (grants history).length, algorithm⟩
  /-- What is registered under an id is built in under it, or was granted it. -/
  denotes : ∀ id entry, session.registry.find? id = some entry →
    (id, entry.algorithm) ∈ builtins (m := m) ∨ ⟨id, entry.algorithm⟩ ∈ grants history
  /-- Built-in algorithms have ids that nothing else gets. -/
  apart : ∀ grant ∈ grants history, ∀ builtin ∈ builtins (m := m), grant.id ≠ builtin.1
  /-- What is ever registered under an id later is the very entry that is now. -/
  once : ∀ later last, session.Run later last → ∀ id entry other,
    session.registry.find? id = some entry → last.registry.find? id = some other →
      other.pin = entry.pin
  /-- What is listed ascends. -/
  ascending : session.registry.list.value.Pairwise (· < ·)
  /-- What is listed can be looked up, and nothing else can. -/
  resolved : ∀ id, id ∈ session.registry.list.value ↔
    ∃ pin, (session.registry.lookupId id).value = some pin ∧ pin.id = id

variable {history : List (Command m × Step m)} {session : Session m}

/-- A registration gets the next id, if that is not the last. -/
theorem register_granted {granted : List (Grant m)}
    (numbered : session.registry.prepare.registry.Numbered granted)
    (room : firstFreeId + granted.length + 1 < idLimit) (algorithm : Algorithm m)
    (keepAs : Option String) :
    (Command.register algorithm keepAs).grant? (session.register algorithm keepAs).answer =
      some ⟨firstFreeId + granted.length, algorithm⟩ := by
  rw [register, Registry.register, numbered.freeId_eq, numbered.next, if_pos room]
  rfl

/-- The place of a grant is its id. -/
theorem id_of_getElem? {granted : List (Grant m)} (numbered : session.registry.Numbered granted)
    {place : Nat} {grant : Grant m} (there : granted[place]? = some grant) :
    grant.id = firstFreeId + place := by
  have given : (granted.map Grant.id)[place]? = some grant.id := by
    rw [List.getElem?_map, there]
    rfl
  rw [numbered.ids] at given
  obtain ⟨_, same⟩ := List.getElem?_eq_some_iff.mp given
  rw [List.getElem_range', Nat.one_mul] at same
  exact same.symm

variable [LawfulMonad m]

/-- In every run on a new registry ids are given once, in order. If the registry has built-in
algorithms, they are in place, each under its own id, as soon as anything has been granted an
id. -/
theorem ids_never_reused {start : Registry m} (begun : start = .fresh ∨ start = .empty)
    (run : Run { registry := start } history session) :
    Identified history session ∧
      (start = .fresh → grants history ≠ [] → ∀ builtin ∈ builtins (m := m),
        ∃ entry, session.registry.find? builtin.1 = some entry ∧ entry.algorithm = builtin.2) := by
  have numbered : session.registry.Numbered (grants history) := run.course.numbered begun
  have ready := (run.course.andThen (Course.prepare session.registry)).numbered begun
  obtain ⟨_, balanced, _⟩ := (run.reachable .begun).balanced begun
  have readyBalanced := (Ledger.Leads.prepare _ session.held balanced).balanced balanced
  refine ⟨?_, ?_⟩
  · constructor
    · exact fun place grant there => id_of_getElem? numbered there
    · exact fun room algorithm keepAs => register_granted ready room algorithm keepAs
    · intro id entry found
      obtain ⟨present, rfl⟩ := mem_of_find? found
      exact numbered.named entry present
    · intro grant listed builtin builtIn same
      have small := builtin_lt builtIn
      rw [← same] at small
      exact absurd (numbered.granted_mem listed).1 (Nat.not_le_of_lt small)
    · intro later last continued id entry other found otherFound
      exact (run.entry_once begun continued found otherFound).1
    · exact List.pairwise_map.mpr readyBalanced.ascending
    · intro id
      rw [lookupId, lookup_value]
      refine mem_ids_iff.trans ⟨?_, ?_⟩
      · rintro ⟨entry, found⟩
        exact ⟨entry.pin, by rw [found]; rfl, (mem_of_find? found).2⟩
      · rintro ⟨pin, found, _⟩
        obtain ⟨entry, located, _⟩ := Option.map_eq_some_iff.mp found
        exact ⟨entry, located⟩
  · rintro rfl some builtin listed
    have found := run.stocked.find? listed
    rwa [prepare_of_prepared (run.course.prepared_of_granted some)] at found

/-- The first registration installs the built-in algorithms and is given up at once, and so is
the second later on; the third still gets an id of its own. -/
theorem ids_never_reused_specimen :
    let commands : List (Command Id) :=
      [.register Specimen.algorithm none, .register Specimen.algorithm (some "second"),
        .dropPin "second", .register Specimen.algorithm (some "third")]
    let first : Session Id := { registry := .fresh }
    let history := first.recorded commands
    let last := commands.foldl after first
    Identified history last ∧ (∃ entry, last.registry.find? 8 = some entry) ∧
      (grants history).map Grant.id = [1024, 1025, 1026] ∧
      last.registry.list.value = [7, 8, 9, 1026] := by
  intro commands first history last
  have run : first.Run history last := Run.ofCommands first commands
  have some : grants history ≠ [] := by decide +kernel
  obtain ⟨identified, builtIn⟩ := ids_never_reused (.inl rfl) run
  obtain ⟨entry, found, _⟩ := builtIn rfl some (8, Aes.algorithm .aes192) (by simp [builtins])
  exact ⟨identified, ⟨entry, found⟩, by decide +kernel, by decide +kernel⟩

end CipherEngine.Session
