import CipherEngine.Proofs.Session.Holdings
import CipherEngine.Proofs.Specimen

/-!
# Every pin is accounted for

Wherever commands lead, the count of an entry is the number of pins and live handles on it,
and one more if it is built in. Every pin and every live handle names the entry that is
registered under its id, and an entry is registered just as long as something counts it.
-/
namespace CipherEngine.Session

variable {m : Type → Type}

/-- The pins in the session on the entry with a serial number. -/
def pinsOn (session : Session m) (serial : Nat) : Nat :=
  session.pins.countP fun place => place.2.serial = serial

/-- The live handles in the session on the entry with a serial number. -/
def handlesOn (session : Session m) (serial : Nat) : Nat :=
  session.handles.countP fun place =>
    match place.2 with
    | .live handle => handle.pin.serial = serial
    | .closed .. => false

/-- A pin refers to the very entry that is registered under its id. -/
def Refers (session : Session m) (pin : Pin m) : Prop :=
  ∃ entry, session.registry.find? pin.id = some entry ∧
    session.registry.pinned? pin = some entry ∧ entry.pin = pin

/-- The registry counts what the session holds, and the session holds nothing else. -/
structure Accounted [Monad m] (session : Session m) : Prop where
  /-- An entry counts the pins and the live handles on it, and one more if it is built in. -/
  counted : ∀ entry ∈ session.registry.entries,
    entry.pins = session.pinsOn entry.serial + session.handlesOn entry.serial + entry.ownPins
  /-- What is registered has a count, and is found under its id. -/
  registered : ∀ entry ∈ session.registry.entries,
    0 < entry.pins ∧ session.registry.find? entry.id = some entry
  /-- Nothing is held on what is not registered. -/
  absent : ∀ serial, (∀ entry ∈ session.registry.entries, entry.serial ≠ serial) →
    session.pinsOn serial = 0 ∧ session.handlesOn serial = 0
  pins : ∀ place ∈ session.pins, session.Refers place.2
  handles : ∀ place ∈ session.handles, ∀ handle, place.2 = .live handle →
    session.Refers handle.pin

/-- The sessions that commands lead to on a registry. -/
inductive ReachableFrom [Monad m] (start : Registry m) : Session m → Prop where
  | begun : ReachableFrom start { registry := start }
  | performed {session : Session m} {command : Command m} {step : Step m} :
    ReachableFrom start session → MayReturn (session.perform command) step →
      ReachableFrom start step.session

/-- Whether a handle is live and on the entry with a serial number. -/
theorem countP_held_handles (handles : Shelf (Handle m)) (serial : Nat) :
    (handles.values.bind Handle.held).countP (fun pin => pin.serial = serial) =
      handles.countP fun place =>
        match place.2 with
        | .live handle => handle.pin.serial = serial
        | .closed .. => false := by
  induction handles with
  | nil => rfl
  | cons first rest inductionHypothesis =>
    obtain ⟨name, handle⟩ := first
    change (Multiset.bind (handle ::ₘ Shelf.values rest) Handle.held).countP _ = _
    rw [Multiset.cons_bind, Multiset.countP_add, inductionHypothesis, List.countP_cons,
      Nat.add_comm]
    congr 1
    cases handle with
    | closed id mode flags => rfl
    | live handle => simp [Handle.held, ← Multiset.cons_zero, Multiset.countP_cons]

/-- The claims through the session on an entry. -/
theorem countP_held (session : Session m) (serial : Nat) :
    session.held.countP (fun pin => pin.serial = serial) =
      session.pinsOn serial + session.handlesOn serial := by
  rw [held, Multiset.countP_add, countP_held_handles]
  congr 1
  rw [Shelf.values, Multiset.coe_countP, List.countP_map]
  rfl

variable [Monad m] {session : Session m}

/-- A session whose ledger balances is accounted for. -/
theorem accounted_of_balanced (balanced : session.ledger.Balanced) : session.Accounted := by
  have refers (pin : Pin m) (member : pin ∈ session.held) : session.Refers pin := by
    obtain ⟨entry, present, rfl⟩ := balanced.registered pin member
    exact ⟨entry, balanced.find? present, balanced.pinned? present, rfl⟩
  constructor
  · intro entry present
    rw [← countP_held]
    exact balanced.counted entry present
  · exact fun entry present => ⟨balanced.claimed entry present, balanced.find? present⟩
  · intro serial absent
    have none : session.held.countP (fun pin => pin.serial = serial) = 0 := by
      refine Multiset.countP_eq_zero.mpr fun pin member => ?_
      obtain ⟨entry, present, rfl⟩ := balanced.registered pin member
      exact absent entry present
    rw [countP_held] at none
    exact Nat.add_eq_zero_iff.mp none
  · intro place there
    refine refers place.2 (Multiset.mem_add.mpr (.inl ?_))
    exact List.mem_map_of_mem there
  · intro place there handle live
    refine refers handle.pin (Multiset.mem_add.mpr (.inr (Multiset.mem_bind.mpr ?_)))
    refine ⟨place.2, List.mem_map_of_mem there, ?_⟩
    rw [live]
    exact Multiset.mem_singleton_self _

/-- A new registry has no entries yet, and no pins are held. -/
theorem begun_balanced {start : Registry m} (begun : start = .fresh ∨ start = .empty) :
    (Session.ledger { registry := start }).Balanced := by
  have bare : start.entries = [] ∧ start.nextId = firstFreeId := by
    rcases begun with rfl | rfl <;> exact ⟨rfl, rfl⟩
  have none (entry : Entry m) (present : entry ∈ start.entries) : False := by
    rw [bare.1] at present
    cases present
  constructor
  · rw [ledger, bare.1]
    exact .nil
  · rw [ledger, bare.1]
    exact .nil
  · exact fun entry present => (none entry present).elim
  · exact bare.2.ge
  · exact fun _ => bare.1
  · exact fun entry present => (none entry present).elim
  · exact fun entry present => (none entry present).elim
  · exact fun pin member => absurd member (Multiset.notMem_zero pin)

variable [LawfulMonad m]

/-- Wherever commands lead, the places are in order and the ledger balances, and they lead
there by moves. -/
theorem ReachableFrom.balanced {start : Registry m} (begun : start = .fresh ∨ start = .empty)
    (reachable : session.ReachableFrom start) :
    session.Tidy ∧ session.ledger.Balanced ∧
      Ledger.Moves (Session.ledger { registry := start }) session.ledger := by
  induction reachable with
  | begun => exact ⟨⟨.nil, .nil⟩, begun_balanced begun, .refl⟩
  | @performed session command step _ returned inductionHypothesis =>
    obtain ⟨tidy, balanced, earlier⟩ := inductionHypothesis
    obtain ⟨nextTidy, leads⟩ := returned _ (perform_becomes session command) tidy
    rw [zero_add] at leads
    have moves := leads balanced
    exact ⟨nextTidy, moves.balanced balanced, earlier.trans moves⟩

/-- Wherever commands lead from a new registry, every pin is accounted for, and the built-in
algorithms are there once the registry is prepared, if it is one that has them. What a
command does to the registry is a sequence of moves of the ledger: it gives a pin back only
to an entry that counts it, and takes an entry out only with the last claim on it. -/
theorem pins_accounted {start : Registry m} (begun : start = .fresh ∨ start = .empty)
    (reachable : session.ReachableFrom start) :
    session.Accounted ∧
    (start = .fresh → session.registry.prepared = true → ∀ builtin ∈ builtins (m := m),
      ∃ entry, session.registry.find? builtin.1 = some entry ∧ entry.algorithm = builtin.2) ∧
    ∀ command step, MayReturn (session.perform command) step →
      Ledger.Moves session.ledger step.session.ledger := by
  obtain ⟨tidy, balanced, moves⟩ := reachable.balanced begun
  refine ⟨accounted_of_balanced balanced, ?_, ?_⟩
  · rintro rfl prepared builtin listed
    have unprepared : Ledger.Equipped (Session.ledger { registry := (.fresh : Registry m) }) :=
      fun never => absurd never Bool.noConfusion
    obtain ⟨entry, present, id, algorithm⟩ :=
      moves.equipped (begun_balanced begun) unprepared prepared builtin listed
    exact ⟨entry, id ▸ balanced.find? present, algorithm⟩
  · intro command step returned
    obtain ⟨_, leads⟩ := returned _ (perform_becomes session command) tidy
    rw [zero_add] at leads
    exact leads balanced

/-- The session that a command leaves. -/
def after (session : Session Id) (command : Command Id) : Session Id :=
  (Id.run (session.perform command)).session

/-- Commands lead on to the session after them. -/
theorem ReachableFrom.afterAll (commands : List (Command Id)) {start : Registry Id}
    {session : Session Id} (reachable : session.ReachableFrom start) :
    (commands.foldl after session).ReachableFrom start := by
  induction commands generalizing session with
  | nil => exact reachable
  | cons command rest inductionHypothesis =>
    exact inductionHypothesis
      (.performed reachable (MayReturn.self (session.perform command)))

/-- The specimen among the built-in algorithms: it is registered, opened twice, once in
vain, and its pin is copied before the first is given back. -/
theorem pins_accounted_specimen :
    let commands : List (Command Id) :=
      [.register Specimen.algorithm (some "first"), .openHandle "handle" (.pin "first") .cbc {},
        .openHandle "refused" (.pin "first") .cbc { stealing := true, mac := true },
        .copyPin "first" (some "second"), .dropPin "first", .lookup (.id 8) (some "aes")]
    let session := commands.foldl after { registry := .fresh }
    session.Accounted ∧
      session.registry.entries.map (fun entry => (entry.id, entry.pins)) =
        [(7, 1), (8, 2), (9, 1), (firstFreeId, 2)] := by
  intro commands session
  have reachable : session.ReachableFrom .fresh := ReachableFrom.begun.afterAll commands
  exact ⟨(pins_accounted (.inl rfl) reachable).1, by decide +kernel⟩

end CipherEngine.Session
