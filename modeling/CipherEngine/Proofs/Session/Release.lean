import CipherEngine.Proofs.Session.Harm

/-!
# What a handle gives back

How often the pin of a handle is given back is read off the count of its entry. A command that is
for the handle in a place, or opens another there, may lower the count of a pin, and by as much
the pin was given back with the handle. For a live handle that is once, if the command ends it or
opens another in its place, and else never. Where no live handle is, in an empty place or in one
with a closed handle, it is never.
-/
namespace CipherEngine

variable {m : Type → Type}

/-- The command closes the handle in the place, or lets it go. -/
def Command.ends (place : String) : Command m → Bool
  | .close handle | .discardHandle handle => handle = place
  | _ => false

/-- The answer is that it was done. -/
def Answer.isDone : Answer m → Bool
  | .done (.ok ()) => true
  | _ => false

/-- The command has opened another handle in the place. -/
def Command.replaces (place : String) (command : Command m) (answer : Answer m) : Bool :=
  command.opensAt place && answer.isDone

namespace Session

open Registry

variable [Monad m]

/-- The registry at the moment when a command begins to deal with the handle in its place:
another one that is opened there has been opened by then. -/
def basis (session : Session m) : Command m → Registry m
  | .openHandle _ subject mode flags machine =>
    match session.subjectId subject with
    | none => session.registry
    | some id => (Handle.openOn session.registry id mode flags machine).registry
  | _ => session.registry

/-- By how much the count of the pin falls with the handle in the place: what a command does to
it, if it is for the handle or opens another in the place. -/
def taken (session : Session m) (place : String) (pin : Pin m) (command : Command m)
    (step : Step m) : Int :=
  if command.addresses place || command.opensAt place then
    ((session.basis command).pinCount pin : Int) - step.session.registry.pinCount pin
  else 0

variable {session : Session m} {place : String} {pin : Pin m}

omit [Monad m] in
/-- A command that ends the handle in a place is for it. -/
theorem ends_of_foreign {command : Command m} (foreign : command.addresses place = false) :
    command.ends place = false := by
  cases command with
  | close name | discardHandle name => exact foreign
  | _ => rfl

/-- A live handle in the place, on the pin. -/
def Holds (session : Session m) (place : String) (pin : Pin m) : Prop :=
  ∃ live, session.handles.at? place = some (.live live) ∧ live.pin = pin

/-- No live handle is in the place. -/
def Vacant (session : Session m) (place : String) : Prop :=
  ∀ live, session.handles.at? place ≠ some (.live live)

/-- What a command does with the pin of a live handle in the place: its count falls by one if the
command ends the handle or replaces it, and else not at all; and the handle stays if it is not
ended. -/
structure Spends (session : Session m) (place : String) (pin : Pin m) (command : Command m)
    (step : Step m) : Prop where
  taken : session.taken place pin command step =
    if command.ends place || command.replaces place step.answer then 1 else 0
  stays : command.replaces place step.answer = false →
    if command.ends place then step.session.Vacant place else step.session.Holds place pin

/-- A command that takes nothing and leaves the handle. -/
theorem Spends.idle {command : Command m} {step : Step m}
    (nothing : session.taken place pin command step = 0) (endless : command.ends place = false)
    (kept : command.replaces place step.answer = false) (holds : step.session.Holds place pin) :
    session.Spends place pin command step := by
  constructor
  · rw [nothing, endless, kept]
    rfl
  · intro _
    rw [endless]
    exact holds

/-- What a command for the handle takes is what is missing after it. -/
theorem taken_of_addresses {command : Command m} (addressed : command.addresses place = true)
    (step : Step m) :
    session.taken place pin command step =
      (session.registry.pinCount pin : Int) - step.session.registry.pinCount pin := by
  rw [taken, addressed, Bool.true_or, if_pos rfl]
  cases command with
  | openHandle => exact absurd addressed Bool.false_ne_true
  | _ => rfl

/-- What is taken with a handle in whose place another is opened is missing after that. -/
theorem taken_of_opens (subject : Subject) (mode : Mode) (flags : Flags) (machine : Machine)
    (step : Step m) :
    session.taken place pin (.openHandle place subject mode flags machine) step =
      ((session.basis (.openHandle place subject mode flags machine)).pinCount pin : Int) -
        step.session.registry.pinCount pin := by
  have opens : Command.opensAt place
      (.openHandle place subject mode flags machine : Command m) = true := decide_eq_true rfl
  rw [taken, opens, Bool.or_true, if_pos rfl]

/-- A command that does not concern the place takes nothing with it. -/
theorem taken_of_foreign {command : Command m} (foreign : command.addresses place = false)
    (unopened : command.opensAt place = false) (step : Step m) :
    session.taken place pin command step = 0 := by
  rw [taken, foreign, unopened]
  rfl

/-- A pin that the session holds, once it is given back. -/
theorem taken_of_dropPin {registry : Registry m} {held : Multiset (Pin m)}
    (balanced : Ledger.Balanced ⟨registry, pin ::ₘ held⟩) :
    (registry.pinCount pin : Int) - (registry.dropPin pin).registry.pinCount pin = 1 := by
  rw [balanced.pinCount_dropPin]
  omega

section Live

variable {live : LiveHandle m} (tidy : session.Tidy)
  (found : session.handles.at? place = some (.live live))

include tidy found

omit [Monad m] in
/-- A live handle in a place holds its pin. -/
theorem held_live : session.held =
    live.pin ::ₘ { session with handles := session.handles.without place }.held := by
  rw [tidy.held_without_handle found, ← Multiset.singleton_add]
  rfl

variable (balanced : session.ledger.Balanced)

include balanced

/-- To let a live handle go gives its pin back, and leaves the place empty. -/
theorem discardHandle_spends :
    session.Spends place live.pin (.discardHandle place) (session.discardHandle place) := by
  have same : Command.addresses place (.discardHandle place : Command m) = true :=
    decide_eq_true rfl
  have ended : Command.ends place (.discardHandle place : Command m) = true :=
    decide_eq_true rfl
  rw [ledger, held_live tidy found] at balanced
  constructor
  · rw [taken_of_addresses same, ended, Bool.true_or, if_pos rfl, discardHandle, found]
    exact taken_of_dropPin balanced
  · intro _
    rw [if_pos ended, discardHandle, found]
    intro other there
    rw [Shelf.at?_without_self] at there
    cases there

/-- So does closing it, and leaves it closed. -/
theorem close_spends :
    session.Spends place live.pin (.close place) (session.close place) := by
  have same : Command.addresses place (.close place : Command m) = true := decide_eq_true rfl
  have ended : Command.ends place (.close place : Command m) = true := decide_eq_true rfl
  rw [ledger, held_live tidy found] at balanced
  constructor
  · rw [taken_of_addresses same, ended, Bool.true_or, if_pos rfl, close, found]
    exact taken_of_dropPin balanced
  · intro _
    rw [if_pos ended, close, found]
    intro other there
    cases (Shelf.at?_put_self _ place _).symm.trans there

/-- To open another handle in the place gives the pin back if one is opened, after that one has
its own. -/
theorem openHandle_spends (subject : Subject) (mode : Mode) (flags : Flags) (machine : Machine)
    {id : AlgorithmId}
    (named : session.subjectId subject = some id) :
    session.Spends place live.pin (.openHandle place subject mode flags machine)
      (session.openHandle place id mode flags machine) := by
  have taken_eq (step : Step m) :
      session.taken place live.pin (.openHandle place subject mode flags machine) step =
        ((Handle.openOn session.registry id mode flags machine).registry.pinCount live.pin : Int) -
          step.session.registry.pinCount live.pin := by
    rw [taken_of_opens, basis, named]
  have leads := Handle.openOn_leads session.registry session.held id mode flags machine balanced
  cases opened : (Handle.openOn session.registry id mode flags machine).value with
  | error cause =>
    rw [openHandle, opened]
    refine .idle ?_ rfl (Bool.and_false _) ⟨live, found, rfl⟩
    exact (taken_eq _).trans (Int.sub_self _)
  | ok handle =>
    have replaced : Command.replaces place
        (.openHandle place subject mode flags machine : Command m) (.done (.ok ())) = true := by
      simp [Command.replaces, Command.opensAt, Answer.isDone]
    have counted : Ledger.Balanced ⟨(Handle.openOn session.registry id mode flags machine).registry,
        handle.held + session.held⟩ := by
      have after := leads.balanced balanced
      rwa [opened] at after
    rw [held_live tidy found, Multiset.add_cons] at counted
    rw [openHandle, opened, found]
    constructor
    · rw [taken_eq, replaced, Bool.or_true, if_pos rfl]
      exact taken_of_dropPin counted
    · exact fun kept => absurd replaced (Bool.eq_false_iff.mp kept)

variable [LawfulMonad m]

/-- No other command touches the pin. -/
theorem perform_spends (command : Command m) :
    Ensures (session.perform command) (session.Spends place live.pin command) := by
  -- A command for the handle that leaves the registry as it is, and the handle.
  have harmless {step : Step m} (addressed : command.addresses place = true)
      (endless : command.ends place = false) (unopened : command.opensAt place = false)
      (registry : step.session.registry = session.registry)
      (holds : step.session.Holds place live.pin) :
      session.Spends place live.pin command step := by
    refine .idle ?_ endless ?_ holds
    · rw [taken_of_addresses addressed, registry, Int.sub_self]
    · rw [Command.replaces, unopened, Bool.false_and]
  cases command.concern place with
  | discards => exact Ensures.pure (discardHandle_spends tidy found balanced)
  | closes => exact Ensures.pure (close_spends tidy found balanced)
  | asks request =>
    change Ensures (session.request place request) _
    rw [Session.request, found]
    refine (LiveHandle.respond_keeps live request).bind fun outcome kept => Ensures.pure ?_
    obtain ⟨next, left, keeps⟩ := kept
    refine harmless (decide_eq_true rfl) rfl rfl rfl ⟨next, ?_, keeps.shape.pin⟩
    rw [Shelf.at?_put_self, left]
  | describes =>
    refine Ensures.pure ?_
    rw [found]
    exact harmless (decide_eq_true rfl) rfl rfl rfl ⟨live, found, rfl⟩
  | opens subject mode flags machine =>
    refine Ensures.pure ?_
    cases named : session.subjectId subject with
    | none =>
      refine .idle ?_ rfl (Bool.and_false _) ⟨live, found, rfl⟩
      rw [taken_of_opens, basis, named]
      exact Int.sub_self _
    | some id => exact openHandle_spends tidy found balanced subject mode flags machine named
  | elsewhere foreign unopened =>
    refine (session.perform_elsewhere foreign unopened).mono fun step alike => ?_
    refine .idle (taken_of_foreign foreign unopened step) (ends_of_foreign foreign) ?_
      ⟨live, alike.trans found, rfl⟩
    rw [Command.replaces, unopened, Bool.false_and]

end Live

/-! ## After the end -/

/-- A command for an empty place is skipped. -/
theorem perform_empty (empty : session.handles.at? place = none) {command : Command m}
    (addressed : command.addresses place = true) :
    session.perform command = pure session.skip := by
  cases command.concern place with
  | discards => rw [perform, discardHandle, empty]
  | closes => rw [perform, close, empty]
  | asks request => rw [perform, Session.request, empty]
  | describes => rw [perform, empty]
  | opens => exact absurd addressed Bool.false_ne_true
  | elsewhere foreign => exact absurd addressed (Bool.eq_false_iff.mp foreign)

section Closed

variable {id : AlgorithmId} {mode : Mode} {flags : Flags}
  (closed : session.handles.at? place = some (.closed id mode flags))

include closed

/-- A closed handle that is let go leaves its place, and nothing else happens. -/
theorem perform_discard_closed :
    session.perform (.discardHandle place) =
      pure ⟨{ session with handles := session.handles.without place }, .done (.ok ()), []⟩ := by
  rw [perform, discardHandle, closed]
  rfl

variable [LawfulMonad m]

/-- A closed handle that is used ends the program. The registry, the pins and every handle are
left as they were, no primitive is called, and no bytes are handed out. -/
theorem perform_closed {command : Command m} (used : command.uses place = true) :
    ∃ handles, (∀ name, handles.at? name = session.handles.at? name) ∧
      session.perform command =
        pure ⟨{ session with handles }, .halted (.fatal .closedHandle),
          [.fatal .closedHandle]⟩ := by
  cases command with
  | close name =>
    obtain rfl : name = place := of_decide_eq_true used
    refine ⟨session.handles, fun _ => rfl, ?_⟩
    rw [perform, close, closed]
    rfl
  | request name request =>
    obtain rfl : name = place := of_decide_eq_true used
    refine ⟨session.handles.put name (.closed id mode flags), fun other => ?_,
      request_closed closed request⟩
    by_cases here : other = name
    · rw [here, Shelf.at?_put_self, closed]
    · exact Shelf.at?_put_of_ne _ _ here
  | _ => exact absurd used Bool.false_ne_true

end Closed

omit [Monad m] in
/-- Where no live handle is, a place is empty or has a closed one. -/
theorem Vacant.cases (vacant : session.Vacant place) :
    session.handles.at? place = none ∨
      ∃ id mode flags, session.handles.at? place = some (.closed id mode flags) := by
  match found : session.handles.at? place with
  | none => exact .inl rfl
  | some (.closed id mode flags) => exact .inr ⟨id, mode, flags, rfl⟩
  | some (.live live) => exact absurd found (vacant live)

/-- What is in the place is what was there, or has been let go. -/
def Remains (session : Session m) (place : String) (next : Session m) : Prop :=
  next.handles.at? place = session.handles.at? place ∨ next.handles.at? place = none

omit [Monad m] in
/-- So there is no live handle afterwards either. -/
theorem Remains.vacant {next : Session m} (remains : session.Remains place next)
    (vacant : session.Vacant place) : next.Vacant place := by
  intro live there
  rcases remains with same | none
  · exact vacant live (same.symm.trans there)
  · cases none.symm.trans there

/-- What a command does where no live handle is: nothing is taken, and what is in the place stays
there or is let go, unless another handle is opened in it. -/
structure Spares (session : Session m) (place : String) (command : Command m) (step : Step m) :
    Prop where
  taken : ∀ pin, session.taken place pin command step = 0
  remains : command.replaces place step.answer = false → session.Remains place step.session

/-- A handle that is opened where no live one is takes nothing with it. -/
theorem openHandle_spares (vacant : session.Vacant place) (id : AlgorithmId)
    (mode : Mode) (flags : Flags) (machine : Machine) :
    let step := session.openHandle place id mode flags machine
    step.session.registry = (Handle.openOn session.registry id mode flags machine).registry ∧
      (step.answer.isDone = false → session.Remains place step.session) := by
  rw [openHandle]
  cases (Handle.openOn session.registry id mode flags machine).value with
  | error cause => exact ⟨rfl, fun _ => .inl rfl⟩
  | ok handle =>
    obtain empty | ⟨oldId, oldMode, oldFlags, closed⟩ := vacant.cases
    · rw [empty]
      exact ⟨rfl, fun undone => Bool.noConfusion undone⟩
    · rw [closed]
      exact ⟨rfl, fun undone => Bool.noConfusion undone⟩

/-- Every command spares the place where no live handle is. -/
theorem perform_spares [LawfulMonad m] (vacant : session.Vacant place) (command : Command m) :
    Ensures (session.perform command) (session.Spares place command) := by
  -- A command for the place leaves the registry as it is.
  have harmless {step : Step m} (addressed : command.addresses place = true)
      (registry : step.session.registry = session.registry)
      (remains : session.Remains place step.session) : session.Spares place command step := by
    refine ⟨fun pin => ?_, fun _ => remains⟩
    rw [taken_of_addresses addressed, registry, Int.sub_self]
  have used (addressed : command.addresses place = true) (uses : command.uses place = true) :
      Ensures (session.perform command) (session.Spares place command) := by
    obtain empty | ⟨id, mode, flags, closed⟩ := vacant.cases
    · rw [perform_empty empty addressed]
      exact Ensures.pure (harmless addressed rfl (.inl rfl))
    · obtain ⟨handles, same, performed⟩ := perform_closed closed uses
      rw [performed]
      exact Ensures.pure (harmless addressed rfl (.inl (same place)))
  cases command.concern place with
  | closes => exact used (decide_eq_true rfl) (decide_eq_true rfl)
  | asks request => exact used (decide_eq_true rfl) (decide_eq_true rfl)
  | discards =>
    have mine : Command.addresses place (.discardHandle place : Command m) = true :=
      decide_eq_true rfl
    obtain empty | ⟨id, mode, flags, closed⟩ := vacant.cases
    · rw [perform_empty empty mine]
      exact Ensures.pure (harmless mine rfl (.inl rfl))
    · rw [perform_discard_closed closed]
      exact Ensures.pure (harmless mine rfl (.inr (Shelf.at?_without_self _ place)))
  | describes =>
    refine Ensures.pure ?_
    cases session.handles.at? place <;> exact harmless (decide_eq_true rfl) rfl (.inl rfl)
  | opens subject mode flags machine =>
    refine Ensures.pure ?_
    cases named : session.subjectId subject with
    | none =>
      refine ⟨fun pin => ?_, fun _ => .inl rfl⟩
      rw [taken_of_opens, basis, named]
      exact Int.sub_self _
    | some id =>
      obtain ⟨registry, remains⟩ := openHandle_spares vacant id mode flags machine
      refine ⟨fun pin => ?_, fun kept => remains ?_⟩
      · rw [taken_of_opens, basis, named, registry]
        exact Int.sub_self _
      · rwa [Command.replaces, Command.opensAt, decide_eq_true rfl, Bool.true_and] at kept
  | elsewhere foreign unopened =>
    refine (session.perform_elsewhere foreign unopened).mono fun step alike => ?_
    exact ⟨fun _ => taken_of_foreign foreign unopened step, fun _ => .inl alike⟩

end Session

end CipherEngine
