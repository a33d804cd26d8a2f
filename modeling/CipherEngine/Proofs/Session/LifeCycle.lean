import CipherEngine.Proofs.Session.Release

/-!
# The life of a handle

A handle holds one pin while it is live. Whatever first ends it, closing it, letting it go, or
opening another in its place, gives this pin back, and nothing that is done with it before or
afterwards does so again. A closed handle may still be let go or described; any other use of it
ends the program and leaves everything as it was. A live handle never gets that far.
-/
namespace CipherEngine

variable {m : Type → Type}

namespace Session

open Registry

/-- By how much the count of the pin falls over a run with the handle in the place. -/
def takenBack [Monad m] (place : String) (pin : Pin m) (session : Session m) :
    List (Command m × Step m) → Int
  | [] => 0
  | (command, step) :: rest =>
    session.taken place pin command step + takenBack place pin step.session rest

/-- The session that a history leads to. -/
def reached (session : Session m) : List (Command m × Step m) → Session m
  | [] => session
  | (_, step) :: rest => reached step.session rest

/-- A history leads to the session of its last step. -/
theorem reached_concat (session : Session m) (history : List (Command m × Step m))
    (command : Command m) (step : Step m) :
    session.reached (history ++ [(command, step)]) = step.session := by
  induction history generalizing session with
  | nil => rfl
  | cons first rest inductionHypothesis => exact inductionHypothesis first.2.session

variable [Monad m] {session first last : Session m} {place : String} {pin : Pin m}
  {history : List (Command m × Step m)}

/-- The last step takes back what it takes from where the history has led. -/
theorem takenBack_concat (session : Session m) (history : List (Command m × Step m))
    (command : Command m) (step : Step m) :
    takenBack place pin session (history ++ [(command, step)]) =
      takenBack place pin session history +
        (session.reached history).taken place pin command step := by
  induction history generalizing session with
  | nil => simp [takenBack, reached]
  | cons first rest inductionHypothesis =>
    rw [List.cons_append, takenBack, inductionHypothesis, takenBack, reached, Int.add_assoc]

/-- A run leads to the session that its history leads to. -/
theorem Run.reached (run : first.Run history last) : first.reached history = last := by
  cases run with
  | begun => rfl
  | performed _ _ => exact reached_concat first _ _ _

/-! ## Runs -/

variable [LawfulMonad m] {start : Registry m} {later : List (Command m × Step m)}

/-- Over a run that replaces no handle in the place, the pin of a live one is given back once if a
command ends the handle, and else never; and so long the handle is live. -/
theorem Holds.run (begun : start = .fresh ∨ start = .empty)
    (reachable : session.ReachableFrom start) (holds : session.Holds place pin)
    (run : session.Run later last)
    (unreplaced : ∀ performed ∈ later, performed.1.replaces place performed.2.answer = false) :
    (takenBack place pin session later =
        if later.any fun performed => performed.1.ends place then 1 else 0) ∧
      if later.any fun performed => performed.1.ends place then last.Vacant place
      else last.Holds place pin := by
  induction run with
  | begun => exact ⟨rfl, holds⟩
  | @performed history middle command step run returned inductionHypothesis =>
    obtain ⟨earlier, here⟩ := List.forall_mem_append.mp unreplaced
    obtain ⟨taken, left⟩ := inductionHypothesis earlier
    have kept := here (command, step) List.mem_cons_self
    rw [takenBack_concat, run.reached, taken, List.any_append, List.any_cons, List.any_nil,
      Bool.or_false]
    by_cases ended : (history.any fun performed => performed.1.ends place) = true
    · rw [if_pos ended] at left
      obtain ⟨nothing, remains⟩ := returned _ (perform_spares left command)
      rw [nothing, ended, Bool.true_or, if_pos rfl, if_pos rfl]
      exact ⟨rfl, (remains kept).vacant left⟩
    · rw [if_neg ended] at left
      obtain ⟨live, found, rfl⟩ := left
      obtain ⟨tidy, balanced, _⟩ := (run.reachable reachable).balanced begun
      have spends := returned _ (perform_spends tidy found balanced command)
      have spent := spends.taken
      rw [kept, Bool.or_false] at spent
      rw [Bool.eq_false_iff.mpr ended, Bool.false_or, spent, if_neg Bool.false_ne_true, zero_add]
      exact ⟨rfl, spends.stays kept⟩

omit [Monad m] [LawfulMonad m] in
/-- What remains over one stretch of a run and the next remains over both. -/
theorem Remains.trans {middle next : Session m} (earlier : session.Remains place middle)
    (remains : middle.Remains place next) : session.Remains place next := by
  rcases remains with same | none
  · rcases earlier with before | gone
    · exact .inl (same.trans before)
    · exact .inr (same.trans gone)
  · exact .inr none

/-- Over a run that replaces no handle in the place, nothing is given back where no live one is, and
none comes there. -/
theorem Vacant.run (vacant : session.Vacant place) (run : session.Run later last)
    (unreplaced : ∀ performed ∈ later, performed.1.replaces place performed.2.answer = false) :
    (∀ pin, takenBack place pin session later = 0) ∧ session.Remains place last := by
  induction run with
  | begun => exact ⟨fun _ => rfl, .inl rfl⟩
  | @performed history middle command step run returned inductionHypothesis =>
    obtain ⟨earlier, here⟩ := List.forall_mem_append.mp unreplaced
    obtain ⟨taken, left⟩ := inductionHypothesis earlier
    obtain ⟨nothing, remains⟩ := returned _ (perform_spares (left.vacant vacant) command)
    refine ⟨fun pin => ?_, left.trans (remains (here (command, step) List.mem_cons_self))⟩
    rw [takenBack_concat, run.reached, taken, nothing]
    rfl

/-- No command replaces a handle in the place, unless it is the last. -/
def Unreplaced (place : String) (history : List (Command m × Step m)) : Prop :=
  ∀ performed ∈ history.dropLast, performed.1.replaces place performed.2.answer = false

/-- Whether a handle was replaced can be read off the history. -/
instance (place : String) (history : List (Command m × Step m)) :
    Decidable (Unreplaced place history) :=
  inferInstanceAs (Decidable (∀ performed ∈ history.dropLast,
    performed.1.replaces place performed.2.answer = false))

/-- The command ends the handle in the place, or has replaced it. -/
def Releases (place : String) (performed : Command m × Step m) : Bool :=
  performed.1.ends place || performed.1.replaces place performed.2.answer

/-- So a live handle gives its pin back once, if it is ended or replaced at all. -/
theorem Holds.released (begun : start = .fresh ∨ start = .empty)
    (reachable : session.ReachableFrom start) (holds : session.Holds place pin)
    (run : session.Run later last) (unreplaced : Unreplaced place later) :
    takenBack place pin session later = if later.any (Releases place) then 1 else 0 := by
  cases run with
  | begun => rfl
  | @performed history middle command step run returned =>
    rw [Unreplaced, List.dropLast_concat] at unreplaced
    obtain ⟨taken, left⟩ := holds.run begun reachable run unreplaced
    have only : history.any (Releases place) =
        history.any fun performed => performed.1.ends place := by
      rw [Bool.eq_iff_iff, List.any_eq_true, List.any_eq_true]
      refine exists_congr fun performed => and_congr_right fun there => ?_
      rw [Releases, unreplaced performed there, Bool.or_false]
    rw [takenBack_concat, run.reached, taken, List.any_append, only, List.any_cons, List.any_nil,
      Bool.or_false]
    by_cases ended : (history.any fun performed => performed.1.ends place) = true
    · rw [if_pos ended] at left
      obtain ⟨nothing, _⟩ := returned _ (perform_spares left command)
      rw [nothing, ended, Bool.true_or]
      rfl
    · rw [if_neg ended] at left
      obtain ⟨live, found, rfl⟩ := left
      obtain ⟨tidy, balanced, _⟩ := (run.reachable reachable).balanced begun
      have spends := returned _ (perform_spends tidy found balanced command)
      rw [Bool.eq_false_iff.mpr ended, Bool.false_or, spends.taken, if_neg Bool.false_ne_true,
        zero_add, Releases]

/-- Where no live handle is, not even the command that opens one gives anything back. -/
theorem Vacant.released (vacant : session.Vacant place) (run : session.Run later last)
    (unreplaced : Unreplaced place later) (pin : Pin m) :
    takenBack place pin session later = 0 := by
  cases run with
  | begun => rfl
  | @performed history middle command step run returned =>
    rw [Unreplaced, List.dropLast_concat] at unreplaced
    obtain ⟨taken, remains⟩ := vacant.run run unreplaced
    obtain ⟨nothing, _⟩ := returned _ (perform_spares (remains.vacant vacant) command)
    rw [takenBack_concat, run.reached, taken, nothing]
    rfl

/-! ## The two phases -/

/-- The handle in the place is live, and its pin will be given back once. -/
structure LivesOnce (session : Session m) (place : String) (live : LiveHandle m) : Prop where
  /-- The pin is given back when the handle is ended or replaced, and at no other time. -/
  released : ∀ later last, session.Run later last → Unreplaced place later →
    takenBack place live.pin session later = if later.any (Releases place) then 1 else 0
  /-- Until then the handle stays as live as it is, and then it is gone. -/
  stays : ∀ later last, session.Run later last →
    (∀ performed ∈ later, performed.1.replaces place performed.2.answer = false) →
      if later.any fun performed => performed.1.ends place then last.Vacant place
      else last.Holds place live.pin
  /-- Closing it gives the pin back and leaves a closed handle in the place. -/
  closes :
    let dropped := session.registry.dropPin live.pin
    session.perform (.close place) =
      pure ⟨{ session with
          registry := dropped.registry
          handles := session.handles.put place (.closed live.pin.id live.mode live.flags) },
        .done (.ok ()), dropped.events ++ [.closed live.pin.id]⟩
  /-- Nothing that is asked of it, or done with it, ends the program by a condition. -/
  safe : ∀ command step, (command.addresses place || command.opensAt place) = true →
    MayReturn (session.perform command) step →
      Event.Harmless step.events ∧ ∀ cause, step.answer ≠ .halted (.fatal cause)

/-- The handle in the place is closed, and has no pin any more. -/
structure StaysClosed (session : Session m) (place : String) : Prop where
  /-- No pin is given back, whether the handle is let go or replaced. -/
  spares : ∀ later last, session.Run later last → Unreplaced place later →
    ∀ pin, takenBack place pin session later = 0
  /-- The handle stays closed until it is let go. -/
  remains : ∀ later last, session.Run later last →
    (∀ performed ∈ later, performed.1.replaces place performed.2.answer = false) →
      session.Remains place last
  /-- Every use of it ends the program, and changes nothing. -/
  refuses : ∀ command, command.uses place = true →
    ∃ handles, (∀ name, handles.at? name = session.handles.at? name) ∧
      session.perform command =
        pure ⟨{ session with handles }, .halted (.fatal .closedHandle), [.fatal .closedHandle]⟩
  /-- Letting it go does nothing else. -/
  discards : session.perform (.discardHandle place) =
    pure ⟨{ session with handles := session.handles.without place }, .done (.ok ()), []⟩
  /-- Unless it is used, nothing that is done with it ends the program by a condition. -/
  safe : ∀ command step, (command.addresses place || command.opensAt place) = true →
    command.uses place = false → MayReturn (session.perform command) step →
      Event.Harmless step.events ∧ ∀ cause, step.answer ≠ .halted (.fatal cause)

/-- Wherever commands lead from a new registry, a live handle gives its pin back once, with the
first command that ends it, and is never taken for a closed one; and a closed handle gives nothing
back, may be let go, and ends the program if it is used, before anything else is done. -/
theorem handles_end_once {start : Registry m} (begun : start = .fresh ∨ start = .empty)
    (reachable : session.ReachableFrom start) (place : String) :
    (∀ live, session.handles.at? place = some (.live live) → session.LivesOnce place live) ∧
      ∀ id mode flags, session.handles.at? place = some (.closed id mode flags) →
        session.StaysClosed place := by
  constructor
  · intro live found
    have holds : session.Holds place live.pin := ⟨live, found, rfl⟩
    constructor
    · exact fun later last run unreplaced => holds.released begun reachable run unreplaced
    · exact fun later last run unreplaced => (holds.run begun reachable run unreplaced).2
    · rw [perform, close, found]
      rfl
    · intro command step concerned returned
      refine returned _ (perform_harmless concerned fun _ id mode flags closed => ?_)
      cases found.symm.trans closed
  · intro id mode flags closed
    have vacant : session.Vacant place := fun live there => by cases closed.symm.trans there
    constructor
    · exact fun later last run unreplaced => vacant.released run unreplaced
    · exact fun later last run unreplaced => (vacant.run run unreplaced).2
    · exact fun command used => perform_closed closed used
    · exact perform_discard_closed closed
    · intro command step concerned unused returned
      refine returned _ (perform_harmless concerned fun used => ?_)
      exact absurd used (Bool.eq_false_iff.mp unused)

/-- A handle on the specimen is asked something, closed and let go, and another is closed for it. -/
theorem handles_end_once_specimen :
    let commands : List (Command Id) :=
      [.register Specimen.algorithm (some "pin"), .openHandle "handle" (.pin "pin") .cbc {}]
    let session := commands.foldl after { registry := .empty }
    let closed := session.after (.close "handle")
    let pin : Pin Id := ⟨0, firstFreeId, Specimen.algorithm⟩
    takenBack "handle" pin session
        (session.recorded [.request "handle" .isKeyed, .close "handle", .discardHandle "handle"]) =
      1 ∧
    takenBack "handle" pin closed
        (closed.recorded [.describeHandle "handle", .openHandle "handle" (.pin "pin") .ecb {}]) =
      0 ∧
    ∃ handles, (∀ name, handles.at? name = closed.handles.at? name) ∧
      closed.perform (.request "handle" (.encryptInPlace [1, 2, 3])) =
        pure ⟨{ closed with handles }, .halted (.fatal .closedHandle),
          [.fatal .closedHandle]⟩ := by
  intro commands session closed pin
  have reachable : session.ReachableFrom .empty := ReachableFrom.begun.afterAll commands
  have lives := (handles_end_once (.inr rfl) reachable "handle").1 (Specimen.opened .cbc {}) rfl
  have ended := (handles_end_once (.inr rfl) (reachable.afterAll [.close "handle"]) "handle").2
    firstFreeId .cbc {} rfl
  refine ⟨?_, ?_, ended.refuses _ rfl⟩
  · exact lives.released _ _ (Run.ofCommands session _) (by decide)
  · exact ended.spares _ _ (Run.ofCommands closed _) (by decide) pin

end Session

end CipherEngine
