import CipherEngine.Proofs.Registry.Course
import CipherEngine.Proofs.Session.Accounting

/-!
# Runs of a session

A run is a sequence of commands with what each of them left and said. Whatever a command does,
to pins and handles as well, it takes the registry of the session through a course that its step
logs, and it makes a grant only if it is a registration that is answered with an entry. So a run
is a course of the registry, with the grants that its answers show.
-/
namespace CipherEngine

variable {m : Type → Type}

/-- The grant that an answer to the command shows: the id in the entry that a registration is
answered with. -/
def Command.grant? : Command m → Answer m → Option (Grant m)
  | .register algorithm _, .entry (some view) => some ⟨view.id, algorithm⟩
  | _, _ => none

/-- Whether the command looks at the registry, which is then made ready first. A handle may also
be opened on a pin, and then there has been a look before. -/
def Command.looks : Command m → Bool
  | .register _ _ | .lookup _ _ | .list | .describeRegistry | .disable _ | .info _ _
  | .keyLength _ | .blockLength _ | .availability _ | .resolve _ | .modeOfOid _ | .nameOf _
  | .openHandle _ (.id _) _ _ _ => true
  | _ => false

/-- The record is about a key, or about the length of a chaining value. -/
def Event.OfRequest : Event → Prop
  | .keyRefused _ _ | .ivMismatch _ _ => True
  | _ => False

/-- The request logs what concerns it, and does not end the program with a condition. -/
structure Outcome.Calm (outcome : Outcome m) : Prop where
  events : ∀ event ∈ outcome.events, event.OfRequest
  reply : ∀ cause, outcome.reply ≠ .error (.fatal cause)

/-- An answer is calm if all that is logged of it is. -/
theorem LiveHandle.calm_answered (next : LiveHandle m) (reply : Reply) {events : List Event}
    (logged : ∀ event ∈ events, event.OfRequest) : (next.answered reply events).Calm :=
  ⟨logged, nofun⟩

/-- A fault is calm: nothing is logged of it, and it is no condition. -/
theorem LiveHandle.calm_faulted (handle : LiveHandle m) (cause : Fault) :
    (handle.faulted cause).Calm :=
  ⟨nofun, nofun⟩

/-- A live handle is calm, whatever it is asked. -/
theorem LiveHandle.respond_calm [Monad m] [LawfulMonad m] (handle : LiveHandle m)
    (request : Request) : Ensures (handle.respond request) Outcome.Calm := by
  have silent (next : LiveHandle m) (reply : Reply) : (next.answered reply []).Calm :=
    next.calm_answered reply fun _ member => absurd member List.not_mem_nil
  cases asked : request.call? with
  | some call =>
    rw [respond_call handle asked]
    refine Ensures.map (Ensures.always _ fun _ => trivial) fun result _ => ?_
    cases result with
    | ok written => exact silent _ _
    | error stop =>
      cases stop with
      | refused | late => exact silent _ _
      | fault cause => exact handle.calm_faulted cause
  | none =>
    have ran : Guards (handle.syncFeedback : Checked m (LiveHandle m)) fun _ => True :=
      Ensures.always _ fun _ _ _ => trivial
    refine (handle.respond_endsIn asked ran).mono fun outcome ends => ?_
    cases ends with
    | keyed key keying =>
      apply calm_answered
      simp only [afterKeying]
      cases keying.verdict with
      | ok => exact fun _ member => absurd member List.not_mem_nil
      | error cause =>
        intro event member
        rw [List.mem_singleton.mp member]
        trivial
    | valued iv =>
      apply calm_answered
      dsimp only [afterIv, ivEvents]
      split
      · exact fun _ member => absurd member List.not_mem_nil
      · intro event member
        rw [List.mem_singleton.mp member]
        trivial
    | counted | aligned | stealing | tagging | restored | shown => exact silent _ _
    | faulted request cause => exact handle.calm_faulted cause

namespace Session

open Registry

variable [Monad m]

/-- What commands lead to from a session, and what they did, in order. -/
inductive Run (first : Session m) : List (Command m × Step m) → Session m → Prop where
  | begun : Run first [] first
  | performed {history : List (Command m × Step m)} {session : Session m} {command : Command m}
    {step : Step m} :
    Run first history session → MayReturn (session.perform command) step →
      Run first (history ++ [(command, step)]) step.session

namespace Run

variable {first session : Session m} {history : List (Command m × Step m)}

/-- A run leads on from where commands have led. -/
theorem reachable {start : Registry m} (run : first.Run history session)
    (reached : first.ReachableFrom start) : session.ReachableFrom start := by
  induction run with
  | begun => exact reached
  | performed _ returned inductionHypothesis => exact .performed inductionHypothesis returned

/-- A run that goes on from where another has led. -/
theorem trans {later : List (Command m × Step m)} {last : Session m}
    (earlier : first.Run history session) (run : session.Run later last) :
    first.Run (history ++ later) last := by
  induction run with
  | begun => rwa [List.append_nil]
  | performed _ returned inductionHypothesis =>
    rw [← List.append_assoc]
    exact inductionHypothesis.performed returned

end Run

/-- The grants that the answers show, in order. -/
def grants (history : List (Command m × Step m)) : List (Grant m) :=
  history.flatMap fun performed => (performed.1.grant? performed.2.answer).toList

/-- What was logged, in order. -/
def log (history : List (Command m × Step m)) : List Event :=
  history.flatMap fun performed => performed.2.events

/-! ## Commands -/

/-- What a step leaves of the registry: the end of a course that it has logged, with the grant
that it shows; and a prepared registry, if the command looks at it. -/
structure Follows (session : Session m) (command : Command m) (step : Step m) : Prop where
  course : Course session.registry (command.grant? step.answer).toList step.events
    step.session.registry
  prepared : command.looks = true → step.session.registry.prepared = true

variable {session : Session m}

/-- A command that does not look, and makes no grant. -/
theorem follows_of_course {command : Command m} {step : Step m} (blind : command.looks = false)
    (course : Course session.registry [] step.events step.session.registry) :
    session.Follows command step := by
  refine ⟨?_, fun looks => ?_⟩
  · have nothing : command.grant? step.answer = none := by
      cases command <;> first | rfl | cases blind
    rw [nothing]
    exact course
  · rw [blind] at looks
    cases looks

/-- A question to the registry. -/
theorem answered_follows {α : Type} {command : Command m} {effect : Effect m α}
    (answer : α → Answer m) (ungranted : ∀ given, command.grant? given = none)
    (consults : session.registry.Consults [] effect) :
    session.Follows command (session.answered effect answer) := by
  refine ⟨?_, fun _ => consults.prepared⟩
  rw [ungranted]
  exact consults.course

/-- Giving a pin back takes the course of dropping it. -/
theorem giveBack_course (session : Session m) (pin : Pin m) :
    Course session.registry [] (session.giveBack pin).2 (session.giveBack pin).1.registry :=
  Course.dropPin session.registry pin

/-- Settling a pin drops one at most: the pin itself, or one that lay in its place. -/
theorem settle_course (session : Session m) (pin : Pin m) (keepAs : Option String) :
    Course session.registry [] (session.settle pin keepAs).2
      (session.settle pin keepAs).1.registry := by
  cases keepAs with
  | none => exact giveBack_course session pin
  | some place =>
    rw [settle]
    cases session.pins.at? place with
    | none => exact Course.still
    | some old => exact giveBack_course _ old

/-- A command on the pin in a place. -/
theorem withPin_course (session : Session m) (place : String) {command : Pin m → Step m}
    (course : ∀ pin, Course session.registry [] (command pin).events
      (command pin).session.registry) :
    Course session.registry [] (session.withPin place command).events
      (session.withPin place command).session.registry := by
  rw [withPin]
  split
  · exact Course.still
  · next pin _ => exact course pin

/-- A pin that is shown and settled, after what was done to get it. -/
theorem present_follows {command : Command m} {granted : List (Grant m)} {α : Type}
    {effect : Effect m α} (consults : session.registry.Consults granted effect) (pin : Pin m)
    (keepAs : Option String)
    (shown : ∀ view : EntryView, view.id = pin.id →
      (command.grant? (.entry (some view))).toList = granted) :
    session.Follows command
      ({ session with registry := effect.registry }.present pin keepAs effect.events) := by
  have settled := settle_course { session with registry := effect.registry } pin keepAs
  refine ⟨?_, fun _ => settled.precedes.prepared consults.prepared⟩
  rw [present, shown _ rfl]
  exact consults.course.andThen settled

/-- A registration is answered with an entry just when it makes a grant. -/
theorem register_follows (session : Session m) (algorithm : Algorithm m)
    (keepAs : Option String) :
    session.Follows (.register algorithm keepAs) (session.register algorithm keepAs) := by
  have consults := Consults.register session.registry algorithm
  rw [register]
  cases registered : (session.registry.register algorithm).value with
  | error cause =>
    rw [registered] at consults
    exact ⟨consults.course, fun _ => consults.prepared⟩
  | ok pin =>
    rw [registered] at consults
    refine present_follows consults pin keepAs fun view same => ?_
    change [(⟨view.id, algorithm⟩ : Grant m)] = [⟨pin.id, algorithm⟩]
    rw [same]

/-- A lookup follows a course that grants nothing. -/
theorem lookup_follows (session : Session m) (target : Target) (keepAs : Option String) :
    session.Follows (.lookup target keepAs) (session.lookup target keepAs) := by
  have consults : session.registry.Consults [] (find session.registry target) := by
    cases target <;> exact Consults.lookup session.registry _
  rw [lookup]
  cases (find session.registry target).value with
  | none => exact ⟨consults.course, fun _ => consults.prepared⟩
  | some pin => exact present_follows consults pin keepAs fun _ _ => rfl

/-- A handle that is opened, and then the one that is closed for it. -/
theorem openHandle_follows (session : Session m) (place : String) (subject : Subject)
    (id : AlgorithmId) (mode : Mode) (flags : Flags) (machine : Machine) :
    session.Follows (.openHandle place subject mode flags machine)
      (session.openHandle place id mode flags machine) := by
  have opened := Handle.openOn_consults session.registry id mode flags machine
  rw [openHandle]
  cases (Handle.openOn session.registry id mode flags machine).value with
  | error cause => exact ⟨opened.course, fun _ => opened.prepared⟩
  | ok handle =>
    dsimp only
    cases session.handles.at? place with
    | none => exact ⟨opened.course, fun _ => opened.prepared⟩
    | some old =>
      have discarded := Handle.discard_course
        (Handle.openOn session.registry id mode flags machine).registry old
      exact ⟨opened.course.andThen discarded,
        fun _ => discarded.precedes.prepared opened.prepared⟩

/-- Letting go of a handle drops its pin at most. -/
theorem discardHandle_course (session : Session m) (place : String) :
    Course session.registry [] (session.discardHandle place).events
      (session.discardHandle place).session.registry := by
  rw [discardHandle]
  split
  · exact Course.still
  · next handle _ => exact Handle.discard_course session.registry handle

/-- And so does closing it. -/
theorem close_course (session : Session m) (place : String) :
    Course session.registry [] (session.close place).events
      (session.close place).session.registry := by
  rw [close]
  split
  · exact Course.still
  · next handle _ =>
    have closed := Handle.close_course session.registry handle
    dsimp only
    split <;> exact closed

variable [LawfulMonad m]

/-- A request to a handle leaves the registry alone. -/
theorem request_course (session : Session m) (place : String) (request : Request) :
    Ensures (session.request place request) fun step =>
      Course session.registry [] step.events step.session.registry := by
  rw [Session.request]
  split
  · exact Ensures.pure Course.still
  · next handle _ =>
    have quiet : Ensures (handle.respond request) fun outcome =>
        Event.builtinsRegistered ∉ outcome.events := by
      cases handle with
      | live handle =>
        exact (handle.respond_calm request).mono fun outcome calm logged =>
          calm.events _ logged
      | closed id mode flags => exact Ensures.pure (by simp)
    exact quiet.bind fun outcome foreign =>
      Ensures.pure (Course.noting session.registry _ foreign)

/-- Every command follows a course of the registry. -/
theorem perform_follows (session : Session m) (command : Command m) :
    Ensures (session.perform command) (session.Follows command) := by
  cases command with
  | register algorithm keepAs => exact Ensures.pure (register_follows session algorithm keepAs)
  | lookup target keepAs => exact Ensures.pure (lookup_follows session target keepAs)
  | copyPin pin keepAs =>
    refine Ensures.pure (follows_of_course rfl (withPin_course session pin fun held => ?_))
    exact (Course.addPin session.registry held.serial).andThen
      (settle_course { session with registry := session.registry.addPin held.serial } held keepAs)
  | withdraw pin =>
    exact Ensures.pure (follows_of_course rfl (withPin_course session pin fun held =>
      Course.withdraw session.registry held))
  | dropPin pin =>
    exact Ensures.pure (follows_of_course rfl (withPin_course session pin fun held =>
      Course.dropPin session.registry held))
  | entry pin | entryAlgorithm pin | describePin pin =>
    exact Ensures.pure (follows_of_course rfl (withPin_course session pin fun _ => Course.still))
  | list | describeRegistry | resolve name | modeOfOid oid | nameOf id =>
    exact Ensures.pure (answered_follows _ (fun _ => rfl) (Consults.inspect session.registry _))
  | copyRegistry | closeNothing => exact Ensures.pure (follows_of_course rfl Course.still)
  | disable id =>
    exact Ensures.pure (answered_follows _ (fun _ => rfl) (Consults.disable session.registry id))
  | info id query =>
    exact Ensures.pure (answered_follows _ (fun _ => rfl) (Consults.ask session.registry id _))
  | keyLength id | blockLength id | availability id =>
    exact Ensures.pure (answered_follows _ (fun _ => rfl) (Consults.ask session.registry id _))
  | openHandle place subject mode flags machine =>
    refine Ensures.pure ?_
    cases subject with
    | id id => exact openHandle_follows session place (.id id) id mode flags machine
    | pin pin =>
      cases named : session.subjectId (.pin pin) with
      | none => exact follows_of_course rfl Course.still
      | some id => exact openHandle_follows session place (.pin pin) id mode flags machine
  | discardHandle place =>
    exact Ensures.pure (follows_of_course rfl (discardHandle_course session place))
  | close place => exact Ensures.pure (follows_of_course rfl (close_course session place))
  | request place request =>
    exact (request_course session place request).mono fun _ course => follows_of_course rfl course
  | describeHandle place =>
    refine Ensures.pure ?_
    cases session.handles.at? place <;> exact follows_of_course rfl Course.still

/-! ## Runs -/

namespace Run

variable {first : Session m} {history : List (Command m × Step m)}

/-- A run is a course of the registry. -/
theorem course (run : first.Run history session) :
    Course first.registry (grants history) (log history) session.registry := by
  induction run with
  | begun => exact Course.still
  | @performed history session command step _ returned inductionHypothesis =>
    have follows := returned _ (perform_follows session command)
    have course := inductionHypothesis.trans follows.course
    rwa [grants, log, List.flatMap_append, List.flatMap_append, List.flatMap_singleton,
      List.flatMap_singleton]

/-- What is ever registered under an id is one entry. -/
theorem entry_once {later : List (Command m × Step m)} {last : Session m} {id : AlgorithmId}
    {entry other : Entry m} {start : Registry m} (begun : start = .fresh ∨ start = .empty)
    (run : Run { registry := start } history session) (continued : session.Run later last)
    (found : session.registry.find? id = some entry)
    (otherFound : last.registry.find? id = some other) :
    other.pin = entry.pin ∧ (entry.disabled = true → other.disabled = true) := by
  obtain ⟨_, balanced, _⟩ := (run.reachable .begun).balanced begun
  obtain ⟨present, rfl⟩ := mem_of_find? found
  obtain ⟨otherPresent, same⟩ := mem_of_find? otherFound
  -- Something is registered, so the registry is prepared, and the later entry is an old one.
  have prepared : session.registry.prepared = true := by
    refine Bool.eq_true_of_not_eq_false fun unprepared => ?_
    have none := balanced.unprepared unprepared
    change session.registry.entries = [] at none
    rw [none] at present
    cases present
  have old : other.id < session.registry.nextId := same ▸ (run.course.numbered begun).below present
  obtain ⟨earlier, there, alike, stays⟩ :=
    continued.course.precedes.kept prepared other otherPresent old
  have sameId : earlier.id = entry.id := (congrArg Pin.id alike).trans same
  have located := balanced.find? there
  rw [sameId] at located
  obtain rfl := Option.some.inj (located.symm.trans found)
  exact ⟨alike.symm, stays⟩

/-- Where the registry has built-in algorithms, they are in place once it is ready. -/
theorem stocked (run : Run { registry := .fresh } history session) :
    session.registry.prepare.registry.Stocked := by
  have begun : (Registry.fresh : Registry m) = .fresh ∨ (Registry.fresh : Registry m) = .empty :=
    .inl rfl
  obtain ⟨_, balanced, moves⟩ := (run.reachable .begun).balanced begun
  have onward := Ledger.Leads.prepare _ session.held balanced
  have numbered := (run.course.andThen (Course.prepare session.registry)).numbered begun
  refine ⟨(onward.balanced balanced).ascending, ?_, fun entry present small => ?_⟩
  · have unprepared : Ledger.Equipped (Session.ledger { registry := (.fresh : Registry m) }) :=
      fun never => absurd never Bool.noConfusion
    exact Ledger.Moves.equipped (moves.trans onward) (begun_balanced begun) unprepared
      session.registry.prepared_prepare
  · refine (numbered.named entry present).resolve_right fun granted => ?_
    exact absurd small (Nat.not_lt_of_le (numbered.granted_mem granted).1)

end Run

/-- The commands with their steps, when they are carried out in order. -/
def recorded (session : Session Id) : List (Command Id) → List (Command Id × Step Id)
  | [] => []
  | command :: rest =>
    let step := Id.run (session.perform command)
    (command, step) :: step.session.recorded rest

/-- That is a run, up to the session after the last of them. -/
theorem Run.ofCommands (session : Session Id) (commands : List (Command Id)) :
    session.Run (session.recorded commands) (commands.foldl after session) := by
  induction commands generalizing session with
  | nil => exact begun
  | cons command rest inductionHypothesis =>
    have step := begun.performed (MayReturn.self (session.perform command))
    exact step.trans (inductionHypothesis (session.after command))

end Session

end CipherEngine
