import CipherEngine.Proofs.Session.Isolation

/-!
# Conditions that end the program

A live handle is never taken for a closed one. Whatever is asked of it or done with it, and
whatever is opened in its place, no condition ends the program; and a closed handle is let go,
described or replaced without one. The only way to such a condition is to use a handle after it
was closed.
-/
namespace CipherEngine

variable {m : Type → Type}

/-- The command uses the handle in the place: it asks something of it, or closes it. -/
def Command.uses (place : String) : Command m → Bool
  | .close handle | .request handle _ => handle = place
  | _ => false

/-- None of the records is of a condition that ends the program. -/
def Event.Harmless (events : List Event) : Prop := ∀ cause, Event.fatal cause ∉ events

namespace Registry

variable [Monad m]

/-- Making the registry ready does no harm. -/
theorem prepare_harmless (registry : Registry m) : Event.Harmless registry.prepare.events := by
  intro cause
  rw [prepare]
  split <;> simp

/-- Nor does a lookup. -/
theorem lookupId_harmless (registry : Registry m) (id : AlgorithmId) :
    Event.Harmless (registry.lookupId id).events := by
  have ready := prepare_harmless registry
  rw [lookupId, lookup]
  split <;> exact ready

omit [Monad m] in
/-- Nor does giving a pin back. -/
theorem dropPin_harmless (registry : Registry m) (pin : Pin m) :
    Event.Harmless (registry.dropPin pin).events := by
  intro cause
  rw [dropPin]
  split <;> simp

end Registry

namespace Handle

/-- Letting a handle go does no harm, whether it is closed or not. -/
theorem discard_harmless (registry : Registry m) (handle : Handle m) :
    Event.Harmless (discard registry handle).events := by
  intro cause
  cases handle with
  | closed id mode flags => exact List.not_mem_nil
  | live handle =>
    have dropped := Registry.dropPin_harmless registry handle.pin cause
    simpa [discard, close] using dropped

/-- Opening one does none either, whether it is refused or not. -/
theorem openOn_harmless [Monad m] (registry : Registry m) (id : AlgorithmId) (mode : Mode)
    (flags : Flags) (machine : Machine) :
    Event.Harmless (openOn registry id mode flags machine).events := by
  intro cause
  have looked := registry.lookupId_harmless id cause
  have warned : Event.fatal cause ∉ openingWarnings id mode := by
    rw [openingWarnings]
    split <;> simp
  rw [openOn]
  cases (registry.lookupId id).value with
  | none => exact looked
  | some pin =>
    have dropped := Registry.dropPin_harmless (registry.lookupId id).registry pin cause
    dsimp only
    split
    · simp [looked, dropped]
    · split <;> simp [looked, warned, dropped]

end Handle

namespace Session

/-- A command that concerns the place does not end the program, unless it uses a closed handle. -/
theorem perform_harmless [Monad m] [LawfulMonad m] {session : Session m} {place : String}
    {command : Command m} (concerned : (command.addresses place || command.opensAt place) = true)
    (allowed : command.uses place = true →
      ∀ id mode flags, session.handles.at? place ≠ some (.closed id mode flags)) :
    Ensures (session.perform command) fun step =>
      Event.Harmless step.events ∧ ∀ cause, step.answer ≠ .halted (.fatal cause) := by
  have skipped : Event.Harmless session.skip.events ∧
      ∀ cause, session.skip.answer ≠ .halted (.fatal cause) :=
    ⟨fun _ => List.not_mem_nil, fun _ same => by cases same⟩
  have ended (result : Except Refusal Unit) (cause : FatalCondition) :
      (Answer.done result : Answer m) ≠ .halted (.fatal cause) := fun same => by cases same
  cases command.concern place with
  | opens subject mode flags machine =>
    refine Ensures.pure ?_
    cases session.subjectId subject with
    | none => exact skipped
    | some id =>
      have opened := Handle.openOn_harmless session.registry id mode flags machine
      dsimp only
      rw [openHandle]
      cases (Handle.openOn session.registry id mode flags machine).value with
      | error cause => exact ⟨opened, ended _⟩
      | ok handle =>
        cases session.handles.at? place with
        | none => exact ⟨opened, ended _⟩
        | some old =>
          have discarded := Handle.discard_harmless
            (Handle.openOn session.registry id mode flags machine).registry old
          refine ⟨fun cause => ?_, ended _⟩
          simp [opened cause, discarded cause]
  | discards =>
    refine Ensures.pure ?_
    rw [discardHandle]
    cases session.handles.at? place with
    | none => exact skipped
    | some handle => exact ⟨Handle.discard_harmless session.registry handle, ended _⟩
  | closes =>
    refine Ensures.pure ?_
    rw [close]
    cases found : session.handles.at? place with
    | none => exact skipped
    | some handle =>
      cases handle with
      | closed id mode flags => exact absurd found (allowed (decide_eq_true rfl) id mode flags)
      | live live => exact ⟨Handle.discard_harmless session.registry (.live live), ended _⟩
  | asks request =>
    change Ensures (session.request place request) _
    rw [Session.request]
    cases found : session.handles.at? place with
    | none => exact Ensures.pure skipped
    | some handle =>
      cases handle with
      | closed id mode flags => exact absurd found (allowed (decide_eq_true rfl) id mode flags)
      | live live =>
        refine (live.respond_calm request).bind fun outcome calm => Ensures.pure ⟨?_, ?_⟩
        · exact fun cause logged => calm.events _ logged
        · intro cause halted
          cases said : outcome.reply with
          | ok reply =>
            rw [said] at halted
            cases reply <;> cases halted
          | error halt =>
            rw [said] at halted
            cases halted
            exact calm.reply cause said
  | describes =>
    refine Ensures.pure ?_
    cases session.handles.at? place with
    | none => exact skipped
    | some handle => exact ⟨fun _ => List.not_mem_nil, fun _ same => by cases same⟩
  | elsewhere foreign unopened =>
    rw [foreign, unopened] at concerned
    exact absurd concerned Bool.false_ne_true

end Session

end CipherEngine
