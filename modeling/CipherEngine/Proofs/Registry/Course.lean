import CipherEngine.Handle.Opening
import CipherEngine.Proofs.Registry.Search
import Mathlib.Data.List.Range

/-!
# The course of a registry

A registry changes in four ways: the built-in algorithms are installed, an algorithm is entered
under the next id, an entry is altered in what its pins do not name, or an entry is taken out.
Its course is a sequence of such changes, with the algorithms that were entered under their ids
and what was logged. Every operation on a registry, and the opening and closing of handles, is a
course.

What a course leaves says how it began: each id is given once, in order, so a registration, and
whether it refuses handles, is never lost in another one of the same id; and the built-in
algorithms are installed just when that is logged. Nothing is assumed here of the pins that are
held.
-/
namespace CipherEngine

variable {m : Type → Type}

/-- An algorithm that was registered, and the id that it got. -/
structure Grant (m : Type → Type) where
  id : AlgorithmId
  algorithm : Algorithm m

namespace Registry

/-- What the registry before says of the one after: ids only go up, and what is registered under
an id that was given before was registered then, as the same entry; once it refuses handles, it
does so for good. -/
structure Precedes (registry next : Registry m) : Prop where
  nextId : registry.nextId ≤ next.nextId
  prepared : registry.prepared = true → next.prepared = true
  kept : registry.prepared = true → ∀ entry ∈ next.entries, entry.id < registry.nextId →
    ∃ earlier ∈ registry.entries, earlier.pin = entry.pin ∧
      (earlier.disabled = true → entry.disabled = true)

namespace Precedes

/-- A registry precedes itself. -/
theorem refl (registry : Registry m) : registry.Precedes registry :=
  ⟨Nat.le_refl _, id, fun _ entry present _ => ⟨entry, present, rfl, id⟩⟩

/-- What precedes a registry precedes whatever it precedes. -/
theorem trans {first registry last : Registry m} (earlier : first.Precedes registry)
    (later : registry.Precedes last) : first.Precedes last := by
  refine ⟨Nat.le_trans earlier.nextId later.nextId, later.prepared ∘ earlier.prepared, ?_⟩
  intro prepared entry present old
  obtain ⟨middle, there, same, stays⟩ := later.kept (earlier.prepared prepared) entry present
    (Nat.lt_of_lt_of_le old earlier.nextId)
  have middleOld : middle.id < first.nextId := by
    rwa [show middle.id = entry.id from congrArg Pin.id same]
  obtain ⟨before, listed, alike, held⟩ := earlier.kept prepared middle there middleOld
  exact ⟨before, listed, alike.trans same, stays ∘ held⟩

end Precedes

variable [Monad m]

/-- A single change of a registry, the grants that it makes, and what it logs. A record about
anything but the installation may be logged at any time. -/
inductive Change : Registry m → List (Grant m) → List Event → Registry m → Prop where
  | installed {registry : Registry m} :
    registry.prepared = false → Change registry [] [.builtinsRegistered] registry.install
  | entered {registry : Registry m} (algorithm : Algorithm m) {id : AlgorithmId} :
    registry.prepared = true → id = freeId registry.nextId registry.entries →
      Change registry [⟨id, algorithm⟩] [] { registry.enter id algorithm with nextId := id + 1 }
  | altered (registry : Registry m) (serial : Nat) (change : Entry m → Entry m) :
    (∀ entry, (change entry).pin = entry.pin) →
    (∀ entry, entry.disabled = true → (change entry).disabled = true) →
      Change registry [] [] (registry.modify serial change)
  | removed (registry : Registry m) (serial : Nat) :
    Change registry [] []
      { registry with entries := registry.entries.filter fun other => other.serial ≠ serial }
  | noted (registry : Registry m) {event : Event} :
    event ≠ .builtinsRegistered → Change registry [] [event] registry

/-- Changes, one after another. -/
inductive Course (first : Registry m) : List (Grant m) → List Event → Registry m → Prop where
  | still : Course first [] [] first
  | onward {grants granted : List (Grant m)} {log noted : List Event} {registry next : Registry m} :
    Course first grants log registry → Change registry granted noted next →
      Course first (grants ++ granted) (log ++ noted) next

variable {α : Type} {first registry next last : Registry m} {grants granted : List (Grant m)}
  {log noted : List Event}

namespace Course

/-- A single change is a course. -/
theorem single (change : Change registry granted noted next) :
    Course registry granted noted next := still.onward change

/-- A course that goes on from another is one course, with the grants and the log of both. -/
theorem trans (earlier : Course first grants log registry)
    (course : Course registry granted noted last) :
    Course first (grants ++ granted) (log ++ noted) last := by
  induction course with
  | still => simpa only [List.append_nil] using earlier
  | onward _ change inductionHypothesis =>
    rw [← List.append_assoc, ← List.append_assoc]
    exact inductionHypothesis.onward change

/-- A course goes on with one that makes no grants. -/
theorem andThen (earlier : Course first grants log registry)
    (course : Course registry [] noted last) : Course first grants (log ++ noted) last := by
  simpa only [List.append_nil] using earlier.trans course

/-- Records about other things than the installation may be logged. -/
theorem noting (registry : Registry m) (noted : List Event)
    (foreign : Event.builtinsRegistered ∉ noted) : Course registry [] noted registry := by
  induction noted with
  | nil => exact still
  | cons event rest inductionHypothesis =>
    obtain ⟨differs, restForeign⟩ := List.ne_and_not_mem_of_not_mem_cons foreign
    exact (single (.noted registry differs.symm)).trans (inductionHypothesis restForeign)

/-- A course may log more about other things. -/
theorem note (course : Course first grants log registry) (noted : List Event)
    (foreign : Event.builtinsRegistered ∉ noted) : Course first grants (log ++ noted) registry :=
  course.andThen (noting registry noted foreign)

/-! ## Operations on pins -/

/-- One more pin on an entry. -/
theorem addPin (registry : Registry m) (serial : Nat) :
    Course registry [] [] (registry.addPin serial) :=
  single (.altered registry serial _ (fun _ => rfl) fun _ disabled => disabled)

/-- A pin that is given back is taken off its entry, which goes if that was the last. -/
theorem dropPin (registry : Registry m) (pin : Pin m) :
    Course registry [] (registry.dropPin pin).events (registry.dropPin pin).registry := by
  rw [Registry.dropPin]
  split
  · next left given =>
    have course : Course registry [] [] left := by
      rw [release] at given
      split at given
      · cases given
      · split at given
        · cases given
          exact single (.removed registry pin.serial)
        · cases given
    exact course.note _ (by simp)
  · next left given =>
    rw [release] at given
    split at given
    · cases given
      exact still
    · split at given
      · cases given
      · cases given
        exact single (.altered registry pin.serial _ (fun _ => rfl) fun _ disabled => disabled)

/-- A pin that is given back through the registry takes the course of one that is dropped, with one
more record. -/
theorem withdraw (registry : Registry m) (pin : Pin m) :
    Course registry [] (registry.withdraw pin).events (registry.withdraw pin).registry :=
  (noting registry [.releasing pin.id] (by simp)).andThen (dropPin registry pin)

/-- A registry is made ready by installing the built-in algorithms, unless they are there. -/
theorem prepare (registry : Registry m) :
    Course registry [] registry.prepare.events registry.prepare.registry := by
  rw [Registry.prepare]
  split
  · exact still
  · next unprepared => exact single (.installed (Bool.eq_false_iff.mpr unprepared))

end Course

/-! ## Operations that look at the registry -/

/-- The operation makes the registry ready, and takes it through a course from there. -/
def Consults (registry : Registry m) (granted : List (Grant m)) (effect : Effect m α) : Prop :=
  ∃ noted, effect.events = registry.prepare.events ++ noted ∧
    Course registry.prepare.registry granted noted effect.registry

namespace Consults

/-- All in all that is a course. -/
theorem course {effect : Effect m α} (consults : registry.Consults granted effect) :
    Course registry granted effect.events effect.registry := by
  obtain ⟨noted, events, course⟩ := consults
  rw [events]
  exact (Course.prepare registry).trans course

/-- What follows the operation. -/
theorem andThen {effect : Effect m α} {β : Type} {value : β}
    (consults : registry.Consults granted effect) (course : Course effect.registry [] noted last) :
    registry.Consults granted ⟨last, value, effect.events ++ noted⟩ := by
  obtain ⟨earlier, events, first⟩ := consults
  refine ⟨earlier ++ noted, ?_, first.andThen course⟩
  rw [events, List.append_assoc]

/-- What makes the registry ready and goes on without a record. -/
theorem silent {effect : Effect m α} (events : effect.events = registry.prepare.events)
    (course : Course registry.prepare.registry granted [] effect.registry) :
    registry.Consults granted effect :=
  ⟨[], events.trans (List.append_nil _).symm, course⟩

/-- Reading something off a registry prepares it and does nothing else. -/
theorem inspect (registry : Registry m) (view : Registry m → α) :
    registry.Consults [] (registry.inspect view) := silent rfl .still

/-- A question about an algorithm ends the program or is answered. Either way nothing is granted. -/
theorem ask (registry : Registry m) (id : AlgorithmId) (question : Algorithm m → Verdict α) :
    registry.Consults [] (registry.ask id question) := by
  rw [Registry.ask]
  split
  · exact silent rfl .still
  · split
    · next cause _ => exact ⟨[.fatal cause], rfl, Course.noting _ _ (by simp)⟩
    · exact silent rfl .still

/-- Disabling an algorithm changes its entry at most, and grants nothing. -/
theorem disable (registry : Registry m) (id : AlgorithmId) :
    registry.Consults [] (registry.disable id) := by
  rw [Registry.disable]
  split
  · exact ⟨[.disableUnknown id], rfl, Course.noting _ _ (by simp)⟩
  · next entry _ =>
    have altered := Course.single (.altered registry.prepare.registry entry.serial
      (fun entry => { entry with disabled := true }) (fun _ => rfl) fun _ _ => rfl)
    exact ⟨[.disabled id], rfl, altered.note _ (by simp)⟩

/-- A lookup adds a pin at most, and grants nothing. -/
theorem lookup (registry : Registry m) (search : Registry m → Option (Entry m)) :
    registry.Consults [] (registry.lookup search) := by
  rw [Registry.lookup]
  split
  · exact silent rfl .still
  · next entry _ => exact silent rfl (Course.addPin _ entry.serial)

/-- A registration grants one id, or changes nothing. -/
theorem register (registry : Registry m) (algorithm : Algorithm m) :
    registry.Consults
      (match (registry.register algorithm).value with
      | .error _ => []
      | .ok pin => [⟨pin.id, algorithm⟩])
      (registry.register algorithm) := by
  rw [Registry.register]
  by_cases room : freeId registry.prepare.registry.nextId registry.prepare.registry.entries + 1 <
      idLimit
  · rw [if_pos room]
    have entered := Course.single (.entered algorithm registry.prepared_prepare rfl)
    exact ⟨_, rfl, entered.note _ (by simp)⟩
  · rw [if_neg room]
    exact silent rfl .still

end Consults

end Registry

namespace Handle

variable [Monad m] (registry : Registry m)

open Registry

/-- Opening a handle takes a pin, and gives it back if the handle is refused. -/
theorem openOn_consults (id : AlgorithmId) (mode : Mode) (flags : Flags) (machine : Machine) :
    registry.Consults [] (openOn registry id mode flags machine) := by
  have looked : registry.Consults [] (registry.lookupId id) := Consults.lookup registry _
  have quiet : Event.builtinsRegistered ∉ openingWarnings id mode := by
    rw [openingWarnings]
    split <;> simp
  rw [openOn]
  cases (registry.lookupId id).value with
  | none => exact looked
  | some pin =>
    have dropped := Course.dropPin (registry.lookupId id).registry pin
    have warned := Course.noting (registry.lookupId id).registry _ quiet
    dsimp only
    split
    · exact looked.andThen dropped
    · split
      · rw [List.append_assoc]
        exact looked.andThen (warned.andThen dropped)
      · rw [List.append_assoc]
        exact looked.andThen (warned.note _ (by simp))

/-- Closing a handle gives its pin back, or nothing if the handle is closed. -/
theorem close_course (handle : Handle m) :
    Course registry [] (close registry handle).events (close registry handle).registry := by
  cases handle with
  | closed id mode flags => exact Course.noting registry [.fatal _] (by simp)
  | live handle => exact (Course.dropPin registry handle.pin).note [.closed _] (by simp)

/-- And so does letting go of it. -/
theorem discard_course (handle : Handle m) :
    Course registry [] (discard registry handle).events (discard registry handle).registry := by
  cases handle with
  | closed id mode flags => exact Course.still
  | live handle => exact close_course registry (.live handle)

end Handle

namespace Registry

variable [Monad m] {α : Type} {first registry next last : Registry m}
  {grants granted : List (Grant m)} {log noted : List Event}

/-! ## What a course leaves -/

/-- A change only leads to what the registry precedes: one case for each kind of change. -/
theorem Change.precedes (change : Change registry granted noted next) :
    registry.Precedes next := by
  cases change with
  | installed unprepared =>
    refine ⟨Nat.le_refl _, fun _ => rfl, fun prepared => ?_⟩
    rw [unprepared] at prepared
    cases prepared
  | @entered algorithm id prepared given =>
    have above : registry.nextId ≤ id := given ▸ le_freeId _ _
    refine ⟨Nat.le_succ_of_le above, fun _ => prepared, fun _ entry present old => ?_⟩
    rcases eq_or_mem_of_mem_insertEntry present with rfl | older
    · exact absurd old (Nat.not_lt_of_le above)
    · exact ⟨entry, older, rfl, fun disabled => disabled⟩
  | altered serial change keeps stays =>
    refine ⟨Nat.le_refl _, id, fun _ entry present _ => ?_⟩
    obtain ⟨earlier, there, rfl⟩ := List.mem_map.mp present
    refine ⟨earlier, there, ?_⟩
    split
    · exact ⟨(keeps earlier).symm, stays earlier⟩
    · exact ⟨rfl, id⟩
  | removed serial =>
    refine ⟨Nat.le_refl _, id, fun _ entry present _ => ?_⟩
    exact ⟨entry, (List.mem_filter.mp present).1, rfl, id⟩
  | noted => exact Precedes.refl registry

/-- And so does a whole course, by its changes. -/
theorem Course.precedes (course : Course first grants log last) : first.Precedes last := by
  induction course with
  | still => exact Precedes.refl first
  | onward _ change inductionHypothesis => exact inductionHypothesis.trans change.precedes

/-- After an operation that looks at it the registry is prepared. -/
theorem Consults.prepared {effect : Effect m α} (consults : registry.Consults granted effect) :
    effect.registry.prepared = true := by
  obtain ⟨_, _, course⟩ := consults
  exact course.precedes.prepared registry.prepared_prepare

/-- Where anything was granted, the registry is prepared. -/
theorem Course.prepared_of_granted (course : Course first grants log last) (some : grants ≠ []) :
    last.prepared = true := by
  induction course with
  | still => exact absurd rfl some
  | @onward grants granted _ _ registry next _ change inductionHypothesis =>
    by_cases earlier : grants = []
    · cases change with
      | entered algorithm prepared => exact prepared
      | installed | altered | removed | noted => exact absurd (by rw [earlier]; rfl) some
    · exact change.precedes.prepared (inductionHypothesis earlier)

/-- The installation is logged when the registry becomes prepared. -/
theorem Change.count_installed (change : Change registry granted noted next) :
    noted.count .builtinsRegistered + registry.prepared.toNat = next.prepared.toNat := by
  cases change with
  | installed unprepared => rw [unprepared]; rfl
  | entered algorithm prepared => rw [List.count_nil, Nat.zero_add]; rfl
  | altered => rw [List.count_nil, Nat.zero_add]; rfl
  | removed => rw [List.count_nil, Nat.zero_add]
  | noted differs => rw [List.count_singleton, if_neg (by simpa using differs), Nat.zero_add]

/-- So it is logged once. -/
theorem Course.count_installed (course : Course first grants log last) :
    log.count .builtinsRegistered + first.prepared.toNat = last.prepared.toNat := by
  induction course with
  | still => rw [List.count_nil, Nat.zero_add]
  | onward _ change inductionHypothesis =>
    rw [List.count_append, Nat.add_right_comm, inductionHypothesis, Nat.add_comm]
    exact change.count_installed

/-- The ids that were granted are the first ones for algorithms that are not built in, and what
is registered was granted its id or is built in. -/
structure Numbered (registry : Registry m) (grants : List (Grant m)) : Prop where
  ids : grants.map Grant.id = List.range' firstFreeId grants.length
  next : registry.nextId = firstFreeId + grants.length
  named : ∀ entry ∈ registry.entries, (entry.id, entry.algorithm) ∈ builtins (m := m) ∨
    ⟨entry.id, entry.algorithm⟩ ∈ grants

namespace Numbered

/-- A granted id is one of those that were given. -/
theorem granted_mem (numbered : registry.Numbered grants) {grant : Grant m}
    (listed : grant ∈ grants) : firstFreeId ≤ grant.id ∧ grant.id < registry.nextId := by
  have ranged := List.mem_map_of_mem (f := Grant.id) listed
  rw [numbered.ids, List.mem_range'_1] at ranged
  rwa [numbered.next]

/-- The ids in use are below the next one. -/
theorem below (numbered : registry.Numbered grants) {entry : Entry m}
    (present : entry ∈ registry.entries) : entry.id < registry.nextId := by
  rcases numbered.named entry present with builtIn | granted
  · have small := builtin_lt builtIn
    rw [numbered.next]
    exact Nat.lt_of_lt_of_le small (Nat.le_add_right _ _)
  · exact (numbered.granted_mem granted).2

/-- So the next id is free. -/
theorem freeId_eq (numbered : registry.Numbered grants) :
    freeId registry.nextId registry.entries = registry.nextId :=
  freeId_of_free fun _ present => Nat.ne_of_lt (numbered.below present)

/-- A new registry has granted nothing. -/
theorem begun (start : registry = .fresh ∨ registry = .empty) : registry.Numbered [] := by
  rcases start with rfl | rfl <;> exact ⟨rfl, rfl, fun _ present => absurd present List.not_mem_nil⟩

end Numbered

/-- What is in a registry after the installation is built in, or was there. -/
theorem eq_or_mem_of_mem_install {entry : Entry m} (present : entry ∈ registry.install.entries) :
    (entry.id, entry.algorithm) ∈ builtins (m := m) ∨ entry ∈ registry.entries := by
  simp only [install, builtins, List.foldl, enter] at present
  rcases eq_or_mem_of_mem_insertEntry present with rfl | present
  · simp [builtins]
  rcases eq_or_mem_of_mem_insertEntry present with rfl | present
  · simp [builtins]
  rcases eq_or_mem_of_mem_insertEntry present with rfl | present
  · simp [builtins]
  exact .inr present

/-- A change keeps the account of the numbers: one that registers takes the next, and any other
takes none. -/
theorem Change.numbered (change : Change registry granted noted next)
    (numbered : registry.Numbered grants) : next.Numbered (grants ++ granted) := by
  cases change with
  | installed =>
    rw [List.append_nil]
    refine ⟨numbered.ids, numbered.next, fun entry present => ?_⟩
    rcases eq_or_mem_of_mem_install present with builtIn | older
    · exact .inl builtIn
    · exact numbered.named entry older
  | @entered algorithm id prepared given =>
    obtain rfl : id = firstFreeId + grants.length :=
      given.trans (numbered.freeId_eq.trans numbered.next)
    refine ⟨?_, ?_, fun entry present => ?_⟩
    · rw [List.map_append, numbered.ids, List.length_append, List.length_singleton,
        List.range'_1_concat]
      rfl
    · rw [List.length_append, List.length_singleton]
      rfl
    · rcases eq_or_mem_of_mem_insertEntry present with rfl | older
      · exact .inr (List.mem_append_right grants List.mem_cons_self)
      · exact (numbered.named entry older).imp_right (List.mem_append_left _)
  | altered serial change keeps =>
    rw [List.append_nil]
    refine ⟨numbered.ids, numbered.next, fun entry present => ?_⟩
    obtain ⟨earlier, there, rfl⟩ := List.mem_map.mp present
    split
    · rw [show (_ : Entry m).id = earlier.id from congrArg Pin.id (keeps earlier),
        show (_ : Entry m).algorithm = earlier.algorithm from
          congrArg Pin.algorithm (keeps earlier)]
      exact numbered.named earlier there
    · exact numbered.named earlier there
  | removed serial =>
    rw [List.append_nil]
    exact ⟨numbered.ids, numbered.next, fun entry present =>
      numbered.named entry (List.mem_filter.mp present).1⟩
  | noted =>
    rw [List.append_nil]
    exact numbered

/-- A course grants the ids in order. -/
theorem Course.numbered (course : Course first grants log last)
    (begun : first = .fresh ∨ first = .empty) : last.Numbered grants := by
  induction course with
  | still => exact Numbered.begun begun
  | onward _ change inductionHypothesis => exact change.numbered inductionHypothesis

end Registry

end CipherEngine
