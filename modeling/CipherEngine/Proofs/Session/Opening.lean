import CipherEngine.Proofs.Handle.Settings
import CipherEngine.Proofs.Registry.Search
import CipherEngine.Proofs.Session.Accounting

/-!
# Opening is all or nothing

Opening takes a pin before it knows whether a handle can be made. Where the ledger balances, the
entry has another pin already, so to give the new one back changes a count and takes nothing
out: a handle that is refused leaves the registry as it was once it was ready. What refuses it
is the first obstacle in a fixed order; where there is none, the handle is made, and holds the
one pin that is new.
-/
namespace CipherEngine

variable {m : Type → Type}

namespace Handle

/-- What stands in the way of a handle: at its place in the order of the checks, with the refusal
that it gives. -/
inductive Obstacle (registry : Registry m) (id : AlgorithmId) (mode : Mode) (flags : Flags)
    (machine : Machine) :
    Nat → Refusal → Prop where
  | unknown : registry.find? id = none →
    Obstacle registry id mode flags machine 0 (.configuration (.unknownAlgorithm id))
  | disabled {entry : Entry m} : registry.find? id = some entry → entry.disabled = true →
    Obstacle registry id mode flags machine 1 (.configuration (.disabledAlgorithm id))
  | conflicting : flags.stealing = true → flags.mac = true →
    Obstacle registry id mode flags machine 2 (.configuration .conflictingOptions)
  | unsupported {entry : Entry m} : registry.find? id = some entry →
    entry.algorithm.primitive.supports mode = false →
      Obstacle registry id mode flags machine 3 (.configuration (.unsupportedMode id mode))
  | emptyBlocks {entry : Entry m} : registry.find? id = some entry →
    mode.chainsBlocks = true → entry.algorithm.blockLength = 0 →
      Obstacle registry id mode flags machine 4
        (.configuration (.invalidLength id "block length" 0))
  | layout {entry : Entry m} {cause : StorageRefusal} : registry.find? id = some entry →
    Layout.ofSizes entry.algorithm.contextSize entry.algorithm.blockLength
      entry.algorithm.contextAlignment = .error cause →
      Obstacle registry id mode flags machine 5 cause.toRefusal
  | allocation {entry : Entry m} {layout : Layout} {cause : StorageRefusal} :
    registry.find? id = some entry →
    Layout.ofSizes entry.algorithm.contextSize entry.algorithm.blockLength
      entry.algorithm.contextAlignment = .ok layout →
    Arena.ofLayout layout (if flags.secure then .locked else .standard) machine = .error cause →
      Obstacle registry id mode flags machine 6 cause.toRefusal

/-- Everything is right for a handle on the entry, with the layout and the memory. -/
structure Admits (registry : Registry m) (id : AlgorithmId) (mode : Mode) (flags : Flags)
    (machine : Machine) (entry : Entry m) (layout : Layout) (arena : Arena) : Prop where
  registered : registry.find? id = some entry
  enabled : entry.disabled = false
  consistent : ¬(flags.stealing = true ∧ flags.mac = true)
  supported : entry.algorithm.primitive.supports mode = true
  filled : mode.chainsBlocks = true → entry.algorithm.blockLength ≠ 0
  laidOut : Layout.ofSizes entry.algorithm.contextSize entry.algorithm.blockLength
    entry.algorithm.contextAlignment = .ok layout
  granted : Arena.ofLayout layout (if flags.secure then .locked else .standard) machine = .ok arena

section Checks

variable {registry : Registry m} {id : AlgorithmId} {mode : Mode} {flags : Flags}
  {machine : Machine} {rank : Nat} {cause other : Refusal}

/-- No obstacle comes before a place. -/
def Clear (registry : Registry m) (id : AlgorithmId) (mode : Mode) (flags : Flags)
    (machine : Machine) (rank : Nat) : Prop :=
  ∀ earlier < rank, ∀ cause, ¬Obstacle registry id mode flags machine earlier cause

/-- Before the first condition nothing is in the way. -/
theorem Clear.zero : Clear registry id mode flags machine 0 :=
  fun _ less => absurd less (Nat.not_lt_zero _)

/-- A condition without an obstacle keeps the way clear up to the next. -/
theorem Clear.succ (clear : Clear registry id mode flags machine rank)
    (none : ∀ cause, ¬Obstacle registry id mode flags machine rank cause) :
    Clear registry id mode flags machine (rank + 1) := by
  intro earlier less
  rcases Nat.lt_succ_iff_lt_or_eq.mp less with before | rfl
  · exact clear earlier before
  · exact none

/-- One place gives one refusal. -/
theorem Obstacle.unique (obstacle : Obstacle registry id mode flags machine rank cause)
    (another : Obstacle registry id mode flags machine rank other) : other = cause := by
  cases obstacle with
  | unknown | disabled | conflicting | unsupported | emptyBlocks => cases another; rfl
  | layout found refused =>
    cases another with
    | layout otherFound otherRefused =>
      obtain rfl := Option.some.inj (found.symm.trans otherFound)
      obtain rfl := Except.error.inj (refused.symm.trans otherRefused)
      rfl
  | allocation found laidOut refused =>
    cases another with
    | allocation otherFound otherLaidOut otherRefused =>
      obtain rfl := Option.some.inj (found.symm.trans otherFound)
      obtain rfl := Except.ok.inj (laidOut.symm.trans otherLaidOut)
      obtain rfl := Except.error.inj (refused.symm.trans otherRefused)
      rfl

/-- Nothing stands in the way of a handle for which everything is right. -/
theorem Admits.no_obstacle {entry : Entry m} {layout : Layout} {arena : Arena}
    (admits : Admits registry id mode flags machine entry layout arena) :
    ¬Obstacle registry id mode flags machine rank cause := by
  have named {other : Entry m} (found : registry.find? id = some other) : entry = other :=
    Option.some.inj (admits.registered.symm.trans found)
  intro obstacle
  cases obstacle with
  | unknown missing => cases missing.symm.trans admits.registered
  | disabled found disabled =>
    obtain rfl := named found
    exact Bool.noConfusion (disabled.symm.trans admits.enabled)
  | conflicting stealing mac => exact admits.consistent ⟨stealing, mac⟩
  | unsupported found lacking =>
    obtain rfl := named found
    exact Bool.noConfusion (lacking.symm.trans admits.supported)
  | emptyBlocks found chains empty =>
    obtain rfl := named found
    exact admits.filled chains empty
  | layout found refused =>
    obtain rfl := named found
    cases refused.symm.trans admits.laidOut
  | allocation found laidOut refused =>
    obtain rfl := named found
    obtain rfl := Except.ok.inj (admits.laidOut.symm.trans laidOut)
    cases refused.symm.trans admits.granted

/-- The conditions that need no memory are judged in the order of the obstacles. -/
theorem conditions_decide {entry : Entry m} (found : registry.find? id = some entry)
    (mode : Mode) (flags : Flags) (machine : Machine) :
    let judged := openingConditions entry.algorithm id entry.disabled mode flags
    (∃ rank cause, Obstacle registry id mode flags machine rank cause ∧
      Clear registry id mode flags machine rank ∧ judged = .error cause) ∨
    Clear registry id mode flags machine 5 ∧ entry.disabled = false ∧
      ¬(flags.stealing = true ∧ flags.mac = true) ∧
      entry.algorithm.primitive.supports mode = true ∧
      (mode.chainsBlocks = true → entry.algorithm.blockLength ≠ 0) ∧ judged = .ok () := by
  intro judged
  have named {other : Entry m} (located : registry.find? id = some other) : entry = other :=
    Option.some.inj (found.symm.trans located)
  have clear : Clear registry id mode flags machine 1 := Clear.zero.succ fun _ obstacle => by
    cases obstacle with
    | unknown missing => cases missing.symm.trans found
  by_cases disabled : entry.disabled = true
  · exact .inl ⟨1, _, .disabled found disabled, clear, if_pos disabled⟩
  have clear : Clear registry id mode flags machine 2 := clear.succ fun _ obstacle => by
    cases obstacle with
    | disabled located refuses => exact disabled (named located ▸ refuses)
  by_cases conflict : flags.stealing = true ∧ flags.mac = true
  · refine .inl ⟨2, _, .conflicting conflict.1 conflict.2, clear, ?_⟩
    simp [judged, openingConditions, disabled, Flags.consistent, conflict]
  have consistent : flags.consistent = true := by
    rw [Flags.consistent, Bool.not_eq_true', Bool.eq_false_iff, Ne, Bool.and_eq_true]
    exact conflict
  have clear : Clear registry id mode flags machine 3 := clear.succ fun _ obstacle => by
    cases obstacle with
    | conflicting stealing mac => exact conflict ⟨stealing, mac⟩
  by_cases supported : entry.algorithm.primitive.supports mode = true
  swap
  · refine .inl ⟨3, _, .unsupported found (Bool.eq_false_iff.mpr supported), clear, ?_⟩
    simp [judged, openingConditions, disabled, consistent, supported]
  have clear : Clear registry id mode flags machine 4 := clear.succ fun _ obstacle => by
    cases obstacle with
    | unsupported located lacking =>
      obtain rfl := named located
      exact Bool.noConfusion (lacking.symm.trans supported)
  by_cases empty : mode.chainsBlocks = true ∧ entry.algorithm.blockLength = 0
  · refine .inl ⟨4, _, .emptyBlocks found empty.1 empty.2, clear, ?_⟩
    simp [judged, openingConditions, disabled, consistent, supported, empty]
  have clear : Clear registry id mode flags machine 5 := clear.succ fun _ obstacle => by
    cases obstacle with
    | emptyBlocks located chains none =>
      obtain rfl := named located
      exact empty ⟨chains, none⟩
  refine .inr ⟨clear, Bool.eq_false_iff.mpr disabled, conflict, supported, not_and.mp empty, ?_⟩
  simpa [judged, openingConditions, disabled, consistent, supported] using empty

/-- Then the slots are laid out, and then there is memory for them. -/
theorem arena_decides {entry : Entry m} (found : registry.find? id = some entry)
    (clear : Clear registry id mode flags machine 5) :
    (∃ rank cause, Obstacle registry id mode flags machine rank (StorageRefusal.toRefusal cause) ∧
      Clear registry id mode flags machine rank ∧
        openingArena entry.algorithm flags machine = .error cause) ∨
    ∃ layout arena, Layout.ofSizes entry.algorithm.contextSize entry.algorithm.blockLength
        entry.algorithm.contextAlignment = .ok layout ∧
      Arena.ofLayout layout (if flags.secure then .locked else .standard) machine = .ok arena ∧
      openingArena entry.algorithm flags machine = .ok arena := by
  cases laidOut : Layout.ofSizes entry.algorithm.contextSize entry.algorithm.blockLength
      entry.algorithm.contextAlignment with
  | error cause =>
    refine .inl ⟨5, cause, .layout found laidOut, clear, ?_⟩
    rw [openingArena, laidOut]
  | ok layout =>
    have judged : openingArena entry.algorithm flags machine =
        Arena.ofLayout layout (if flags.secure then .locked else .standard) machine := by
      rw [openingArena, laidOut]
    rw [judged]
    cases granted : Arena.ofLayout layout (if flags.secure then .locked else .standard) machine with
    | error cause =>
      refine .inl ⟨6, cause, .allocation found laidOut granted, clear.succ ?_, rfl⟩
      intro _ obstacle
      cases obstacle with
      | layout located refused =>
        obtain rfl := Option.some.inj (found.symm.trans located)
        cases refused.symm.trans laidOut
    | ok arena => exact .inr ⟨layout, arena, rfl, granted, rfl⟩

end Checks

section Outcome

variable [Monad m] {registry : Registry m} {held : Multiset (Pin m)} {id : AlgorithmId}
  {mode : Mode} {flags : Flags} {machine : Machine}

/-- A handle on an unknown algorithm is refused. -/
theorem openOn_unknown (missing : registry.prepare.registry.find? id = none) :
    (openOn registry id mode flags machine).value = .error (.configuration (.unknownAlgorithm id)) ∧
      (openOn registry id mode flags machine).registry = registry.prepare.registry := by
  rw [openOn, Registry.lookupId, Registry.lookup, missing]
  exact ⟨rfl, rfl⟩

/-- A handle on a registered one is judged by its entry, and takes one pin if it is made. -/
theorem openOn_registered
    (balanced : Ledger.Balanced ⟨registry.prepare.registry, held⟩) {entry : Entry m}
    (found : registry.prepare.registry.find? id = some entry) (mode : Mode) (flags : Flags)
    (machine : Machine) :
    let opened := openOn registry id mode flags machine
    match openingConditions entry.algorithm id entry.disabled mode flags with
    | .error cause => opened.value = .error cause ∧ opened.registry = registry.prepare.registry
    | .ok () =>
      match openingArena entry.algorithm flags machine with
      | .error cause =>
        opened.value = .error cause.toRefusal ∧ opened.registry = registry.prepare.registry
      | .ok arena =>
        opened.value = .ok (.live (LiveHandle.unkeyed entry.pin arena mode flags)) ∧
          opened.registry = registry.prepare.registry.addPin entry.serial := by
  have present := (Registry.mem_of_find? found).1
  have dropped := balanced.addPin_dropPin present
  dsimp only
  rw [openOn, Registry.lookupId, Registry.lookup, found]
  dsimp only
  rw [balanced.addPin_refusesHandles present, show entry.pin.algorithm = entry.algorithm from rfl]
  cases openingConditions entry.algorithm id entry.disabled mode flags with
  | error cause => exact ⟨rfl, dropped⟩
  | ok =>
    dsimp only
    cases openingArena entry.algorithm flags machine with
    | error cause => exact ⟨rfl, dropped⟩
    | ok arena => exact ⟨rfl, rfl⟩

/-- The first obstacle refuses the handle, and the registry is left as it was; if there is none,
the handle is made. -/
theorem openOn_decides (balanced : Ledger.Balanced ⟨registry.prepare.registry, held⟩)
    (id : AlgorithmId) (mode : Mode) (flags : Flags) (machine : Machine) :
    let ready := registry.prepare.registry
    let opened := openOn registry id mode flags machine
    (∃ rank cause, Obstacle ready id mode flags machine rank cause ∧
      Clear ready id mode flags machine rank ∧
      opened.value = .error cause ∧ opened.registry = ready) ∨
    ∃ entry layout arena, Admits ready id mode flags machine entry layout arena ∧
      opened.value = .ok (.live (LiveHandle.unkeyed entry.pin arena mode flags)) ∧
      opened.registry = ready.addPin entry.serial := by
  intro ready opened
  cases found : ready.find? id with
  | none => exact .inl ⟨0, _, .unknown found, .zero, openOn_unknown found⟩
  | some entry =>
    have outcome := openOn_registered balanced found mode flags machine
    rcases conditions_decide found mode flags machine with
      ⟨rank, cause, obstacle, clear, refused⟩ |
      ⟨clear, enabled, consistent, supported, filled, accepted⟩
    · rw [refused] at outcome
      exact .inl ⟨rank, cause, obstacle, clear, outcome⟩
    rw [accepted] at outcome
    rcases arena_decides found clear with
      ⟨rank, cause, obstacle, clear, refused⟩ | ⟨layout, arena, laidOut, granted, given⟩
    · rw [refused] at outcome
      exact .inl ⟨rank, _, obstacle, clear, outcome⟩
    · rw [given] at outcome
      exact .inr ⟨entry, layout, arena,
        ⟨found, enabled, consistent, supported, filled, laidOut, granted⟩, outcome⟩

end Outcome

end Handle

namespace Session

open Handle

variable [Monad m] {session : Session m}

/-- What opening a handle does to a registry that was ready. -/
structure Decided (ready : Registry m) (id : AlgorithmId) (mode : Mode) (flags : Flags)
    (machine : Machine) (opened : Registry.Effect m (Except Refusal (Handle m))) : Prop where
  /-- The handle is made just when everything is right for it. -/
  succeeds : (∃ handle, opened.value = .ok handle) ↔
    ∃ entry layout arena, Admits ready id mode flags machine entry layout arena
  /-- Otherwise the first obstacle refuses it. -/
  refuses : ∀ cause, opened.value = .error cause ↔
    ∃ rank, Obstacle ready id mode flags machine rank cause ∧
      ∀ earlier < rank, ∀ other, ¬Obstacle ready id mode flags machine earlier other
  /-- Then the registry is as it was. -/
  kept : ∀ cause, opened.value = .error cause → opened.registry = ready
  /-- A handle that is made costs one pin under the id, and nothing else is changed. -/
  pinned : ∀ handle, opened.value = .ok handle →
    opened.registry =
      { ready with
        entries := ready.entries.map fun entry =>
          if entry.id = id then { entry with pins := entry.pins + 1 } else entry }
  /-- It holds that pin and the arena that was granted, and has no key, no keystream and only zero
  bytes. -/
  blank : ∀ handle, opened.value = .ok handle →
    ∃ entry layout arena live, Admits ready id mode flags machine entry layout arena ∧
      handle = .live live ∧ live.pin = entry.pin ∧ live.arena = arena ∧
      arena.layout = layout ∧ live.mode = mode ∧ live.flags = flags ∧ live.keyed = false ∧
      live.carry = 0 ∧
      ∀ slot, live.arena.read slot = Bytes.zeros (live.arena.layout.size slot)

variable [LawfulMonad m]

/-- Wherever commands lead from a new registry, opening a handle either makes it, and takes
one pin, or returns the refusal of the first obstacle and takes none. -/
theorem opening_all_or_nothing {start : Registry m} (begun : start = .fresh ∨ start = .empty)
    (reachable : session.ReachableFrom start) (id : AlgorithmId) (mode : Mode) (flags : Flags)
    (machine : Machine) :
    Decided session.registry.prepare.registry id mode flags machine
      (openOn session.registry id mode flags machine) := by
  obtain ⟨_, balanced, _⟩ := reachable.balanced begun
  have ready := (Ledger.Leads.prepare _ session.held balanced).balanced balanced
  rcases openOn_decides ready id mode flags machine with
    ⟨rank, cause, obstacle, clear, refused, left⟩ | ⟨entry, layout, arena, admits, given, left⟩
  · have unmade (handle : Handle m)
        (made : (openOn session.registry id mode flags machine).value = .ok handle) : False := by
      cases refused.symm.trans made
    constructor
    · refine ⟨fun ⟨handle, made⟩ => (unmade handle made).elim, ?_⟩
      rintro ⟨entry, layout, arena, admits⟩
      exact absurd obstacle admits.no_obstacle
    · refine fun other => ⟨fun otherRefused => ?_, ?_⟩
      · obtain rfl := Except.error.inj (refused.symm.trans otherRefused)
        exact ⟨rank, obstacle, clear⟩
      · rintro ⟨place, first, before⟩
        -- Neither of two first obstacles is before the other.
        obtain rfl : rank = place := Nat.le_antisymm
          (Nat.le_of_not_lt fun less => clear place less other first)
          (Nat.le_of_not_lt fun less => before rank less cause obstacle)
        rw [obstacle.unique first]
        exact refused
    · exact fun _ _ => left
    · exact fun handle made => (unmade handle made).elim
    · exact fun handle made => (unmade handle made).elim
  · have unrefused (cause : Refusal)
        (refused : (openOn session.registry id mode flags machine).value = .error cause) :
        False := by
      cases given.symm.trans refused
    constructor
    · exact ⟨fun _ => ⟨entry, layout, arena, admits⟩, fun _ => ⟨_, given⟩⟩
    · refine fun cause => ⟨fun refused => (unrefused cause refused).elim, ?_⟩
      rintro ⟨rank, obstacle, _⟩
      exact absurd obstacle admits.no_obstacle
    · exact fun cause refused => (unrefused cause refused).elim
    · intro handle _
      obtain ⟨present, named⟩ := Registry.mem_of_find? admits.registered
      rw [left, Registry.addPin, Registry.modify]
      congr 1
      refine List.map_congr_left fun other there => ?_
      simp only [ready.serial_eq_iff present there, named]
    · intro handle made
      obtain rfl := Except.ok.inj (given.symm.trans made)
      exact ⟨entry, layout, arena, _, admits, rfl, rfl, rfl, (Arena.ofLayout_ok admits.granted).1,
        rfl, rfl, rfl, rfl, LiveHandle.opened_zeros given⟩

/-- A handle on the specimen is made. One on a built-in algorithm that is disabled, in a mode that
it does not support and with options that exclude each other, is refused as disabled. -/
theorem opening_all_or_nothing_specimen :
    let commands : List (Command Id) := [.register Specimen.algorithm (some "pin"), .disable 8]
    let session := commands.foldl after { registry := .fresh }
    let ready := session.registry.prepare.registry
    let made := openOn session.registry firstFreeId .cbc {} .common
    let refused := openOn session.registry 8 .stream { stealing := true, mac := true } .common
    Decided ready firstFreeId .cbc {} .common made ∧
      made.registry.ids.map (fun id => (made.registry.find? id).map Entry.pins) =
        [some 1, some 1, some 1, some 2] ∧
      Decided ready 8 .stream { stealing := true, mac := true } .common refused ∧
      refused.value.map (fun _ => ()) = .error (.configuration (.disabledAlgorithm 8)) := by
  intro commands session ready made refused
  have reachable : session.ReachableFrom .fresh := ReachableFrom.begun.afterAll commands
  exact ⟨opening_all_or_nothing (.inl rfl) reachable firstFreeId .cbc {} .common, by decide +kernel,
    opening_all_or_nothing (.inl rfl) reachable 8 .stream { stealing := true, mac := true } .common,
    by decide +kernel⟩

end Session

end CipherEngine
