import CipherEngine.Proofs.Coupling
import CipherEngine.Proofs.Session.Run

/-!
# A handle answers by itself

What a handle answers to the commands that address it depends on nothing but the handle: not on
the registry, nor on the other handles and pins of the session. Commands that neither address it
nor open another in its place leave it as it is. So two runs that begin with the same handle in a
place, and give it the same commands, get the same answers from it, whatever else they do.
-/
namespace CipherEngine

variable {m : Type → Type}

/-- The command is one for the handle in the place. -/
def Command.addresses (place : String) : Command m → Bool
  | .discardHandle handle | .close handle | .request handle _ | .describeHandle handle =>
    handle = place
  | _ => false

/-- The command opens a handle in the place. -/
def Command.opensAt (place : String) : Command m → Bool
  | .openHandle handle _ _ _ _ => handle = place
  | _ => false

/-- What a command is for the handle in a place: one for this handle, one that opens another in
its place, or one that does not concern it. -/
inductive Command.Concern (place : String) : Command m → Prop where
  | discards : Concern place (.discardHandle place)
  | closes : Concern place (.close place)
  | asks (request : Request) : Concern place (.request place request)
  | describes : Concern place (.describeHandle place)
  | opens (subject : Subject) (mode : Mode) (flags : Flags) (machine : Machine) :
    Concern place (.openHandle place subject mode flags machine)
  | elsewhere {command : Command m} (foreign : command.addresses place = false)
    (unopened : command.opensAt place = false) : Concern place command

/-- Every command is one of these. -/
theorem Command.concern (command : Command m) (place : String) : command.Concern place := by
  cases command with
  | discardHandle name =>
    by_cases here : name = place
    · exact here ▸ .discards
    · exact .elsewhere (decide_eq_false here) rfl
  | close name =>
    by_cases here : name = place
    · exact here ▸ .closes
    · exact .elsewhere (decide_eq_false here) rfl
  | request name request =>
    by_cases here : name = place
    · exact here ▸ .asks request
    · exact .elsewhere (decide_eq_false here) rfl
  | describeHandle name =>
    by_cases here : name = place
    · exact here ▸ .describes
    · exact .elsewhere (decide_eq_false here) rfl
  | openHandle name subject mode flags machine =>
    by_cases here : name = place
    · exact here ▸ .opens subject mode flags machine
    · exact .elsewhere rfl (decide_eq_false here)
  | _ => exact .elsewhere rfl rfl

namespace Session

/-- The sessions have the same handle in the place. -/
def Alike (place : String) (session other : Session m) : Prop :=
  other.handles.at? place = session.handles.at? place

/-- The steps give the same answer, and leave the same handle in the place. -/
def Step.Alike (place : String) (step other : Step m) : Prop :=
  other.answer = step.answer ∧ Session.Alike place step.session other.session

/-- The commands of a run that the handle in a place got, with its answers. -/
def own (place : String) (history : List (Command m × Step m)) : List (Command m × Answer m) :=
  (history.filter fun performed => performed.1.addresses place).map fun performed =>
    (performed.1, performed.2.answer)

/-- A command at the end is a handle's own if it goes to the place of the handle. -/
theorem own_concat (place : String) (history : List (Command m × Step m)) (command : Command m)
    (step : Step m) :
    own place (history ++ [(command, step)]) =
      if command.addresses place = true then own place history ++ [(command, step.answer)]
      else own place history := by
  by_cases addressed : command.addresses place = true <;> simp [own, addressed]

/-- A handle that is put in the place is there, whatever else is in the sessions. -/
theorem put_alike (handles others : Shelf (Handle m)) (place : String) (handle : Handle m) :
    (others.put place handle).at? place = (handles.put place handle).at? place := by
  rw [Shelf.at?_put_self, Shelf.at?_put_self]

/-- A closed handle that is asked anything ends the program, and goes back into its place. -/
theorem request_closed [Monad m] [LawfulMonad m] {session : Session m} {place : String}
    {id : AlgorithmId} {mode : Mode} {flags : Flags}
    (closed : session.handles.at? place = some (.closed id mode flags)) (request : Request) :
    session.request place request =
      pure ⟨{ session with handles := session.handles.put place (.closed id mode flags) },
        .halted (.fatal .closedHandle), [.fatal .closedHandle]⟩ := by
  rw [Session.request, closed]
  exact pure_bind _ _

/-! ## Commands for the handle -/

section Own

variable [Monad m] {session other : Session m} {place : String}

/-- What the handle in a place answers to a command, and what it becomes, depends on the handle
alone, however computations are compared in which its responses correspond to themselves. -/
theorem perform_own (correspondence : Correspondence m m) (alike : Alike place session other)
    {command : Command m} (addressed : command.addresses place = true)
    (responds : ∀ live, session.handles.at? place = some (.live live) → ∀ request,
      correspondence.Relates (· = ·) (live.respond request) (live.respond request)) :
    correspondence.Relates (Step.Alike place) (session.perform command)
      (other.perform command) := by
  cases command.concern place with
  | discards =>
    refine correspondence.pure ?_
    rw [discardHandle, discardHandle, show other.handles.at? place = _ from alike]
    cases session.handles.at? place with
    | none => exact ⟨rfl, alike⟩
    | some handle =>
      exact ⟨rfl, (Shelf.at?_without_self _ place).trans (Shelf.at?_without_self _ place).symm⟩
  | closes =>
    refine correspondence.pure ?_
    rw [close, close, show other.handles.at? place = _ from alike]
    cases session.handles.at? place with
    | none => exact ⟨rfl, alike⟩
    | some handle =>
      cases handle with
      | closed id mode flags => exact ⟨rfl, alike⟩
      | live handle => exact ⟨rfl, put_alike _ _ place _⟩
  | asks request =>
    change correspondence.Relates _ (session.request place request) (other.request place request)
    rw [Session.request, Session.request, show other.handles.at? place = _ from alike]
    cases found : session.handles.at? place with
    | none => exact correspondence.pure ⟨rfl, alike⟩
    | some handle =>
      have responded : correspondence.Relates (· = ·) (handle.respond request)
          (handle.respond request) := by
        cases handle with
        | closed id mode flags => exact correspondence.pure rfl
        | live handle => exact responds handle found request
      refine correspondence.bind responded fun outcome otherOutcome same => ?_
      obtain rfl := same
      exact correspondence.pure ⟨rfl, put_alike _ _ place _⟩
  | describes =>
    refine correspondence.pure ?_
    rw [show other.handles.at? place = _ from alike]
    cases session.handles.at? place <;> exact ⟨rfl, alike⟩
  | opens => exact absurd addressed Bool.false_ne_true
  | elsewhere foreign => exact absurd addressed (Bool.eq_false_iff.mp foreign)

/-- What the handle in a place does by itself: the commands for it, with its answers, and what
they make of it. -/
inductive Solo (place : String) (first : Option (Handle m)) :
    List (Command m × Answer m) → Option (Handle m) → Prop where
  | begun : Solo place first [] first
  | answered {given : List (Command m × Answer m)} {session : Session m} {command : Command m}
    {step : Step m} :
    Solo place first given (session.handles.at? place) → command.addresses place = true →
    MayReturn (session.perform command) step →
      Solo place first (given ++ [(command, step.answer)]) (step.session.handles.at? place)

/-- Without a command it stays as it is. -/
theorem Solo.nothing {start left : Option (Handle m)} {given : List (Command m × Answer m)}
    (solo : Solo place start given left) (none : given = []) : left = start := by
  cases solo with
  | begun => rfl
  | answered => simp at none

end Own

/-! ## Commands for others -/

/-- To settle a pin concerns no handle. -/
theorem settle_handles (session : Session m) (pin : Pin m) (keepAs : Option String) :
    (session.settle pin keepAs).1.handles = session.handles := by
  cases keepAs with
  | none => rfl
  | some place =>
    rw [settle]
    cases session.pins.at? place <;> rfl

/-- Nor does a command on a pin. -/
theorem withPin_handles (session : Session m) (place : String) {command : Pin m → Step m}
    (kept : ∀ pin, (command pin).session.handles = session.handles) :
    (session.withPin place command).session.handles = session.handles := by
  rw [withPin]
  split
  · rfl
  · next pin _ => exact kept pin

/-- A handle that is let go elsewhere leaves the one in the place. -/
theorem discardHandle_alike (session : Session m) {place name : String} (differ : place ≠ name) :
    Alike place session (session.discardHandle name).session := by
  rw [discardHandle]
  split
  · rfl
  · exact Shelf.at?_without_of_ne session.handles differ

/-- So does one that is closed. -/
theorem close_alike (session : Session m) {place name : String} (differ : place ≠ name) :
    Alike place session (session.close name).session := by
  rw [close]
  split
  · rfl
  · dsimp only
    split
    · rfl
    · exact Shelf.at?_put_of_ne session.handles _ differ

variable [Monad m]

/-- And one that is opened. -/
theorem openHandle_alike (session : Session m) {place name : String} (differ : place ≠ name)
    (id : AlgorithmId) (mode : Mode) (flags : Flags) (machine : Machine) :
    Alike place session (session.openHandle name id mode flags machine).session := by
  rw [openHandle]
  split
  · rfl
  · next handle _ =>
    dsimp only
    split <;> exact Shelf.at?_put_of_ne session.handles handle differ

variable [LawfulMonad m]

/-- A command that does not concern the handle in a place leaves it there. -/
theorem perform_elsewhere (session : Session m) {command : Command m} {place : String}
    (foreign : command.addresses place = false) (closed : command.opensAt place = false) :
    Ensures (session.perform command) fun step => Alike place session step.session := by
  have of_handles {step : Step m} (same : step.session.handles = session.handles) :
      Ensures (pure step : m (Step m)) fun step => Alike place session step.session :=
    Ensures.pure (congrArg (Shelf.at? · place) same)
  cases command with
  | register algorithm keepAs =>
    refine of_handles ?_
    rw [register]
    cases (session.registry.register algorithm).value with
    | error cause => rfl
    | ok pin => exact settle_handles _ pin keepAs
  | lookup target keepAs =>
    refine of_handles ?_
    rw [lookup]
    cases (find session.registry target).value with
    | none => rfl
    | some pin => exact settle_handles _ pin keepAs
  | copyPin pin keepAs =>
    exact of_handles (withPin_handles session pin fun held => settle_handles _ held keepAs)
  | withdraw pin | dropPin pin | entry pin | entryAlgorithm pin | describePin pin =>
    exact of_handles (withPin_handles session pin fun _ => rfl)
  | list | describeRegistry | copyRegistry | disable | info | keyLength | blockLength
  | availability | resolve | modeOfOid | nameOf | closeNothing => exact of_handles rfl
  | openHandle name subject mode flags machine =>
    have differ : place ≠ name := Ne.symm (of_decide_eq_false closed)
    cases subject with
    | id id => exact Ensures.pure (session.openHandle_alike differ id mode flags machine)
    | pin pin =>
      refine Ensures.pure ?_
      cases session.subjectId (.pin pin) with
      | none => rfl
      | some id => exact session.openHandle_alike differ id mode flags machine
  | discardHandle name =>
    exact Ensures.pure (session.discardHandle_alike (Ne.symm (of_decide_eq_false foreign)))
  | close name => exact Ensures.pure (session.close_alike (Ne.symm (of_decide_eq_false foreign)))
  | request name request =>
    have differ : place ≠ name := Ne.symm (of_decide_eq_false foreign)
    change Ensures (session.request name request) _
    rw [Session.request]
    split
    · exact Ensures.pure rfl
    · exact Ensures.bind (Ensures.always _ fun _ => trivial) fun outcome _ =>
        Ensures.pure (Shelf.at?_put_of_ne session.handles outcome.handle differ)
  | describeHandle name =>
    refine Ensures.pure ?_
    cases session.handles.at? name <;> rfl

/-! ## Sequences of commands -/

variable {session other : Session m} {place : String}

/-- A sequence of commands for the handle gets the same answers, with the same effects. -/
theorem performAll_own {commands : List (Command m)} (alike : Alike place session other)
    (addressed : ∀ command ∈ commands, command.addresses place = true) :
    Coupled (fun left right => right.2.map Step.answer = left.2.map Step.answer)
      (session.performAll commands) (other.performAll commands) := by
  induction commands generalizing session other with
  | nil => exact Coupled.pure rfl
  | cons command rest inductionHypothesis =>
    obtain ⟨first, later⟩ := List.forall_mem_cons.mp addressed
    have stepped := perform_own (coupling m) alike first fun live _ request =>
      Coupled.refl (live.respond request)
    refine Coupled.bind stepped fun step otherStep same => ?_
    obtain ⟨answer, left⟩ := same
    rw [answer]
    cases step.answer with
    | halted halt => exact Coupled.pure (congrArg (List.cons · []) answer)
    | _ =>
      refine Coupled.bind (inductionHypothesis left later) fun value otherValue same => ?_
      exact Coupled.pure (congrArg₂ List.cons answer same)

/-! ## Runs -/

variable {first last : Session m} {history : List (Command m × Step m)}

/-- What happens to the handle in a run, it does by itself. -/
theorem Run.solo (run : first.Run history last)
    (closed : ∀ performed ∈ history, performed.1.opensAt place = false) :
    Solo place (first.handles.at? place) (own place history) (last.handles.at? place) := by
  induction run with
  | begun => exact .begun
  | @performed history session command step _ returned inductionHypothesis =>
    obtain ⟨earlier, here⟩ := List.forall_mem_append.mp closed
    have solo := inductionHypothesis earlier
    rw [own_concat]
    split
    · next addressed => exact solo.answered addressed returned
    · next foreign =>
      have same := returned _ (session.perform_elsewhere (Bool.eq_false_iff.mpr foreign)
        (here (command, step) List.mem_cons_self))
      rwa [show step.session.handles.at? place = _ from same]

/-- In a run that does not concern it, the handle stays as it is. -/
theorem Run.alike (run : first.Run history last)
    (spared : ∀ performed ∈ history, performed.1.addresses place = false ∧
      performed.1.opensAt place = false) : Alike place first last := by
  have solo := run.solo fun performed there => (spared performed there).2
  have none : own place history = [] := by
    rw [own, List.map_eq_nil_iff, List.filter_eq_nil_iff]
    exact fun performed there => Bool.eq_false_iff.mp (spared performed there).1
  exact solo.nothing none

/-- A command for a live handle leaves the handle on its pin, if it leaves it live. -/
theorem perform_keepsPin {command : Command m} (addressed : command.addresses place = true)
    {pin : Pin m} (bound : ∀ live, session.handles.at? place = some (.live live) → live.pin = pin) :
    Ensures (session.perform command) fun step =>
      ∀ live, step.session.handles.at? place = some (.live live) → live.pin = pin := by
  cases command.concern place with
  | discards =>
    refine Ensures.pure ?_
    rw [discardHandle]
    split
    · exact bound
    · intro live found
      rw [Shelf.at?_without_self] at found
      cases found
  | closes =>
    refine Ensures.pure ?_
    rw [close]
    split
    · exact bound
    · next handle _ =>
      cases handle with
      | closed id mode flags => exact bound
      | live handle =>
        intro live found
        cases (Shelf.at?_put_self _ place _).symm.trans found
  | asks request =>
    change Ensures (session.request place request) _
    cases found : session.handles.at? place with
    | none =>
      rw [Session.request, found]
      exact Ensures.pure bound
    | some handle =>
      cases handle with
      | closed id mode flags =>
        rw [request_closed found]
        refine Ensures.pure fun live there => ?_
        cases (Shelf.at?_put_self _ place _).symm.trans there
      | live handle =>
        rw [Session.request, found]
        refine (LiveHandle.respond_keeps handle request).bind fun outcome kept =>
          Ensures.pure fun live there => ?_
        obtain ⟨next, left, keeps⟩ := kept
        rw [Shelf.at?_put_self, left] at there
        cases there
        exact keeps.shape.pin.trans (bound handle found)
  | describes =>
    refine Ensures.pure ?_
    cases session.handles.at? place <;> exact bound
  | opens => exact absurd addressed Bool.false_ne_true
  | elsewhere foreign => exact absurd addressed (Bool.eq_false_iff.mp foreign)

/-- The handle stays on its pin. -/
theorem Solo.bound {start left : Option (Handle m)} {given : List (Command m × Answer m)}
    (solo : Solo place start given left) {pin : Pin m}
    (bound : ∀ live, start = some (.live live) → live.pin = pin) :
    ∀ live, left = some (.live live) → live.pin = pin := by
  induction solo with
  | begun => exact bound
  | answered _ addressed returned inductionHypothesis =>
    exact returned _ (perform_keepsPin addressed inductionHypothesis)

/-- Where the responses of the handle are settled, its answers are. -/
theorem Solo.unique {start left otherLeft : Option (Handle m)}
    {given otherGiven : List (Command m × Answer m)} {pin : Pin m}
    (bound : ∀ live, start = some (.live live) → live.pin = pin)
    (settled : ∀ live : LiveHandle m, live.pin = pin → ∀ request, Settled (live.respond request))
    (solo : Solo place start given left) (other : Solo place start otherGiven otherLeft)
    (same : given.map Prod.fst = otherGiven.map Prod.fst) :
    given = otherGiven ∧ otherLeft = left := by
  induction solo generalizing otherGiven otherLeft with
  | begun =>
    cases other with
    | begun => exact ⟨rfl, rfl⟩
    | answered => simp at same
  | @answered given session command step earlier addressed returned inductionHypothesis =>
    cases other with
    | begun => simp at same
    | @answered otherGiven otherSession otherCommand otherStep otherEarlier _ otherReturned =>
      rw [List.map_append, List.map_append] at same
      obtain ⟨commands, last⟩ := List.append_inj' same rfl
      obtain rfl : command = otherCommand := (List.cons.inj last).1
      obtain ⟨rfl, alike⟩ := inductionHypothesis otherEarlier commands
      obtain ⟨value, otherValue, yielded, otherYielded, answer, left⟩ :=
        perform_own (valued m m) alike addressed fun live there request =>
          (settled live (earlier.bound bound live there) request).relates
      rw [returned _ yielded, otherReturned _ otherYielded, answer]
      exact ⟨rfl, left⟩

end Session

end CipherEngine
