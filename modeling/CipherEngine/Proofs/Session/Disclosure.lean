import CipherEngine.Proofs.Handle.Disclosure
import CipherEngine.Proofs.Session.Upkeep

/-!
# Records and answers disclose only lengths

Two runs are compared that differ in bytes alone: in keys, chaining values, counters and
messages, but not in their lengths. Taking the bytes out of the handles of a session leaves what
both runs have in common. A command that asks nothing of a handle acts on just that, and a request
discloses no more of it than that, and the verdict on a key. So as long as the keys have the same
verdicts in both runs, what is left of the two sessions is one and the same, the same records are
logged, and every command succeeds in both or is refused in both for the same cause.
-/
namespace CipherEngine

variable {m : Type → Type}

/-- The command without bytes. -/
def Command.blank : Command m → Command m
  | .request place asked => .request place asked.blank
  | command => command

/-- The answer without the bytes of an output. -/
def Answer.blank : Answer m → Answer m
  | .wrote result output => .wrote result output.blank
  | answer => answer

/-- A verdict on a value has no bytes but those of the value. -/
theorem Answer.ofVerdict_blank {α : Type} {answer : α → Answer m}
    (bare : ∀ value, (answer value).blank = answer value) (verdict : Verdict α) :
    (Answer.ofVerdict answer verdict).blank = Answer.ofVerdict answer verdict := by
  match verdict with
  | .error cause | .ok (.error cause) => rfl
  | .ok (.ok value) => exact bare value

/-- The command asks something of a handle. -/
def Command.isRequest : Command m → Bool
  | .request _ _ => true
  | _ => false

/-- The command gives a key to a handle. -/
def Command.givesKey : Command m → Bool
  | .request _ asked => asked.givesKey
  | _ => false

/-- Only requests have bytes. -/
theorem Command.blank_of_plain {command : Command m} (plain : command.isRequest = false) :
    command.blank = command := by
  cases command with
  | request => cases plain
  | _ => rfl

/-- Blanking a command does not turn it into a request, or back. -/
theorem Command.isRequest_blank (command : Command m) :
    command.blank.isRequest = command.isRequest := by
  cases command <;> rfl

/-- Commands that are the same without bytes are the same, or requests that are. -/
theorem Command.cases_of_blank_eq {command other : Command m}
    (same : command.blank = other.blank) :
    (other = command ∧ command.isRequest = false) ∨
      ∃ place request otherRequest, command = .request place request ∧
        other = .request place otherRequest ∧ otherRequest.blank = request.blank := by
  have alike : command.isRequest = other.isRequest := by
    rw [← isRequest_blank command, same, isRequest_blank]
  cases plain : command.isRequest with
  | false =>
    rw [blank_of_plain plain, blank_of_plain (alike.symm.trans plain)] at same
    exact .inl ⟨same.symm, rfl⟩
  | true =>
    rw [plain] at alike
    cases command with
    | request place request =>
      cases other with
      | request otherPlace otherRequest =>
        injection same with places requests
        exact .inr ⟨place, request, otherRequest, rfl, by rw [places], requests.symm⟩
      | _ => cases alike
    | _ => cases plain

/-- Whether it was done, where the answer says just that. -/
def Answer.result? : Answer m → Option (Except Refusal Unit)
  | .done result => some result
  | _ => none

/-- An answer that tells a result without data is that result. -/
theorem Answer.eq_done {answer : Answer m} {result : Except Refusal Unit}
    (told : answer.result? = some result) : answer = .done result := by
  cases answer with
  | done given => exact congrArg Answer.done (Option.some.inj told)
  | _ => cases told

namespace Shelf

variable {α β : Type} (change : α → β) (shelf : Shelf α) (name : String)

/-- The shelf with every value changed in its place. -/
def mapValues : Shelf β := shelf.map fun place => (place.1, change place.2)

/-- Where values are changed in their places, what lies in a place is what lay there, changed. -/
theorem at?_mapValues : (shelf.mapValues change).at? name = (shelf.at? name).map change := by
  simp [mapValues, at?, List.find?_map, Function.comp_def]

/-- Emptying a place and changing the others may be done in either order. -/
theorem mapValues_without :
    (shelf.without name).mapValues change = (shelf.mapValues change).without name := by
  simp [mapValues, without, List.filter_map, Function.comp_def]

/-- And so may putting a value and changing it with the others. -/
theorem mapValues_put (value : α) :
    (shelf.put name value).mapValues change = (shelf.mapValues change).put name (change value) := by
  rw [put, put, ← mapValues_without]
  rfl

end Shelf

namespace Handle

/-- What has no bytes stays as it is without them. -/
theorem blank_blank (handle : Handle m) : handle.blank.blank = handle.blank := by
  cases handle <;> rfl

/-- A handle is described without its bytes. -/
theorem describe_blank (handle : Handle m) : handle.blank.describe = handle.describe := by
  cases handle <;> rfl

/-- To let a handle go has nothing to do with its bytes. -/
theorem discard_blank (registry : Registry m) (handle : Handle m) :
    discard registry handle.blank = discard registry handle := by
  cases handle <;> rfl

end Handle

namespace Session

/-- The session without the bytes in its handles. -/
def blank (session : Session m) : Session m :=
  { session with handles := session.handles.mapValues Handle.blank }

/-- The step without bytes. -/
def Step.blank (step : Step m) : Step m := ⟨step.session.blank, step.answer.blank, step.events⟩

/-- Blanking a session leaves its registry. -/
theorem blank_registry (session : Session m) : session.blank.registry = session.registry := rfl

/-- It leaves the pins. -/
theorem blank_pins (session : Session m) : session.blank.pins = session.pins := rfl

/-- So a subject names the same algorithm. -/
theorem subjectId_blank (session : Session m) (subject : Subject) :
    session.blank.subjectId subject = session.subjectId subject := by
  cases subject <;> rfl

/-- In each place lies what lay there, blanked. -/
theorem at?_blank (session : Session m) (place : String) :
    session.blank.handles.at? place = (session.handles.at? place).map Handle.blank :=
  Shelf.at?_mapValues _ _ _

/-- A blank session has nothing left to blank. -/
theorem blank_blank (session : Session m) : session.blank.blank = session.blank := by
  simp only [blank, Shelf.mapValues, List.map_map, Function.comp_def, Handle.blank_blank]

/-- And neither has a blank step. -/
theorem Step.blank_blank (step : Step m) : step.blank.blank = step.blank := by
  have answer : step.answer.blank.blank = step.answer.blank := by
    cases step.answer with
    | wrote result output =>
      exact congrArg (Answer.wrote result) (Bytes.blank_eq_iff.mpr output.length_blank)
    | _ => rfl
  simp only [blank, Session.blank_blank, answer]

/-! ## Commands that ask nothing of a handle -/

/-- What is asked of the registry has nothing to do with the handles. -/
theorem answered_blank {α : Type} (session : Session m) (effect : Registry.Effect m α)
    (answer : α → Answer m) (bare : ∀ value, (answer value).blank = answer value) :
    session.blank.answered effect answer = (session.answered effect answer).blank := by
  rw [answered, Step.blank, ← bare]
  rfl

/-- What is given back has nothing to do with the handles. -/
theorem settle_blank (session : Session m) (pin : Pin m) (keepAs : Option String) :
    session.blank.settle pin keepAs =
      ((session.settle pin keepAs).1.blank, (session.settle pin keepAs).2) := by
  cases keepAs with
  | none => rfl
  | some place =>
    rw [settle, settle, blank_pins]
    cases session.pins.at? place <;> rfl

/-- A pin is shown and settled alike in a blank session, since neither looks at a handle. -/
theorem present_blank (session : Session m) (pin : Pin m) (keepAs : Option String)
    (events : List Event) :
    session.blank.present pin keepAs events = (session.present pin keepAs events).blank := by
  rw [present, present, settle_blank]
  rfl

/-- A command on a pin has nothing to do with the handles. -/
theorem withPin_blank (session : Session m) (place : String) {command other : Pin m → Step m}
    (same : ∀ pin, other pin = (command pin).blank) :
    session.blank.withPin place other = (session.withPin place command).blank := by
  rw [withPin, withPin, blank_pins]
  cases session.pins.at? place with
  | none => rfl
  | some pin => exact same pin

/-- A handle is let go, or closed, whatever its bytes are. -/
theorem discardHandle_blank (session : Session m) (place : String) :
    session.blank.discardHandle place = (session.discardHandle place).blank := by
  rw [discardHandle, discardHandle, at?_blank]
  cases session.handles.at? place with
  | none => rfl
  | some handle =>
    simp only [Option.map_some, Handle.discard_blank, Step.blank, blank, Shelf.mapValues_without]
    rfl

/-- A handle is closed alike, blank or not: of what closing shows, nothing depends on bytes. -/
theorem close_blank (session : Session m) (place : String) :
    session.blank.close place = (session.close place).blank := by
  rw [close, close, at?_blank]
  cases session.handles.at? place with
  | none => rfl
  | some handle =>
    cases handle with
    | closed id mode flags => rfl
    | live handle =>
      simp only [Option.map_some, Handle.blank, Handle.close, Step.blank, blank,
        Shelf.mapValues_put]
      rfl

section Acts

variable [Monad m]

/-- Registering looks at no handle. -/
theorem register_blank (session : Session m) (algorithm : Algorithm m) (keepAs : Option String) :
    session.blank.register algorithm keepAs = (session.register algorithm keepAs).blank := by
  rw [register, register, blank_registry]
  cases (session.registry.register algorithm).value with
  | error cause => rfl
  | ok pin =>
    exact present_blank
      { session with registry := (session.registry.register algorithm).registry } pin keepAs _

/-- And neither does a lookup. -/
theorem lookup_blank (session : Session m) (target : Target) (keepAs : Option String) :
    session.blank.lookup target keepAs = (session.lookup target keepAs).blank := by
  rw [lookup, lookup, blank_registry]
  cases (find session.registry target).value with
  | none => rfl
  | some pin =>
    exact present_blank
      { session with registry := (find session.registry target).registry } pin keepAs _

/-- The handle that is opened may have bytes, so they are taken out once more. -/
theorem openHandle_blank (session : Session m) (place : String) (id : AlgorithmId) (mode : Mode)
    (flags : Flags) (machine : Machine) :
    (session.blank.openHandle place id mode flags machine).blank =
      (session.openHandle place id mode flags machine).blank := by
  have put (handle : Handle m) :
      (session.blank.handles.put place handle).mapValues Handle.blank =
        (session.handles.put place handle).mapValues Handle.blank := by
    rw [Shelf.mapValues_put, Shelf.mapValues_put]
    exact congrArg (fun left => Shelf.put left place handle.blank)
      (congrArg Session.handles session.blank_blank)
  rw [openHandle, openHandle, at?_blank, blank_registry]
  cases (Handle.openOn session.registry id mode flags machine).value with
  | error cause =>
    exact congrArg (fun left => (⟨left, _, _⟩ : Step m)) (blank_blank
      { session with registry := (Handle.openOn session.registry id mode flags machine).registry })
  | ok handle =>
    cases session.handles.at? place with
    | none =>
      simp only [Option.map_none, Step.blank, blank]
      rw [← put]
      rfl
    | some old =>
      simp only [Option.map_some, Handle.discard_blank, Step.blank, blank]
      rw [← put]
      rfl

/-- The command is carried out by a function that reads no bytes in the handles. -/
def Overlooks (command : Command m) : Prop :=
  ∃ act : Session m → Step m, (∀ session, session.perform command = pure (act session)) ∧
    ∀ session : Session m, (act session.blank).blank = (act session).blank

/-- A command that asks nothing of a handle overlooks bytes. -/
theorem overlooks_of_plain {command : Command m} (plain : command.isRequest = false) :
    Overlooks command := by
  -- Most commands leave the handles alone, or take bytes out with the handle.
  have acts {act : Session m → Step m}
      (performed : ∀ session, session.perform command = pure (act session))
      (blanks : ∀ session : Session m, act session.blank = (act session).blank) :
      Overlooks command :=
    ⟨act, performed, fun session => by rw [blanks, Step.blank_blank]⟩
  cases command with
  | request => cases plain
  | register algorithm keepAs => exact acts (fun _ => rfl) fun session => session.register_blank _ _
  | lookup target keepAs => exact acts (fun _ => rfl) fun session => session.lookup_blank _ _
  | copyPin pin keepAs =>
    exact acts (fun _ => rfl) fun session => session.withPin_blank _ fun held =>
      present_blank { session with registry := session.registry.addPin held.serial } _ _ _
  | withdraw pin | dropPin pin | entry pin | entryAlgorithm pin | describePin pin =>
    exact acts (fun _ => rfl) fun session => session.withPin_blank _ fun held => rfl
  | openHandle place subject mode flags machine =>
    refine ⟨_, fun _ => rfl, fun session => ?_⟩
    rw [subjectId_blank]
    cases session.subjectId subject with
    | none => exact congrArg (fun left => (⟨left, _, _⟩ : Step m)) session.blank_blank
    | some id => exact session.openHandle_blank place id mode flags machine
  | discardHandle place => exact acts (fun _ => rfl) fun session => session.discardHandle_blank _
  | close place => exact acts (fun _ => rfl) fun session => session.close_blank _
  | describeHandle place =>
    refine acts (fun _ => rfl) fun session => ?_
    rw [at?_blank]
    cases session.handles.at? place with
    | none => rfl
    | some handle =>
      simp only [Option.map_some, Handle.describe_blank]
      rfl
  | info id query | keyLength id | blockLength id | availability id =>
    exact acts (fun _ => rfl) fun session =>
      session.answered_blank _ _ (Answer.ofVerdict_blank fun _ => rfl)
  | _ => exact acts (fun _ => rfl) fun session => rfl

end Acts

/-! ## Requests -/

/-- What the outcome of a request is in a session: the handle goes back into its place, and the
reply is the answer. -/
def conclude (session : Session m) (place : String) (outcome : Outcome m) : Step m where
  session := { session with handles := session.handles.put place outcome.handle }
  answer :=
    match outcome.reply with
    | .ok reply => Answer.ofReply reply
    | .error halt => .halted halt
  events := outcome.events

/-- The bytes that an outcome brings into a session are its own. -/
theorem conclude_blank (session : Session m) (place : String) (outcome : Outcome m) :
    session.blank.conclude place outcome.blank = (session.conclude place outcome).blank := by
  have answer : (session.blank.conclude place outcome.blank).answer =
      (session.conclude place outcome).answer.blank := by
    rw [conclude, conclude, Outcome.blank]
    cases outcome.reply with
    | error halt => rfl
    | ok reply => cases reply <;> rfl
  rw [Step.blank, ← answer]
  simp only [conclude, blank, Shelf.mapValues_put]
  rfl

/-- What is disclosed of a request in a session. A closed handle discloses that it is closed. -/
def discloses (session : Session m) (verdict : Except KeyRefusal Unit) (place : String)
    (request : Request) : Step m :=
  match session.handles.at? place with
  | none => session.skip
  | some (.closed id mode flags) =>
    session.conclude place
      ⟨.closed id mode flags, .error (.fatal .closedHandle), [.fatal .closedHandle]⟩
  | some (.live live) => session.conclude place (live.discloses verdict request)

/-- If a key is given, the answer tells the verdict, and else there is none to tell. -/
theorem discloses_eq {session : Session m} {verdict other : Except KeyRefusal Unit}
    {place : String} {request : Request}
    (told : request.givesKey = true → (session.discloses verdict place request).answer =
      (session.discloses other place request).answer) :
    session.discloses verdict place request = session.discloses other place request := by
  unfold discloses at told ⊢
  generalize session.handles.at? place = found at told ⊢
  cases found with
  | none => rfl
  | some handle =>
    cases handle with
    | closed id mode flags => rfl
    | live live =>
      by_cases keyed : request.givesKey = true
      · cases request with
        | setKey key =>
          have same := told rfl
          have verdicts : verdict = other := by
            cases verdict <;> cases other <;> cases same <;> rfl
          rw [verdicts]
        | _ => cases keyed
      · exact congrArg (session.conclude place)
          (live.discloses_of_keyless verdict other (Bool.eq_false_iff.mpr keyed))

/-- A request discloses in a session what it discloses of the handle. -/
theorem request_discloses [Monad m] [LawfulMonad m] {session : Session m} (ready : session.Ready)
    (place : String) (request : Request) :
    Ensures (session.request place request) fun step =>
      ∃ verdict, step.blank = session.blank.discloses verdict place request.blank := by
  cases found : session.handles.at? place with
  | none =>
    rw [Session.request, found]
    refine Ensures.pure ⟨.ok (), ?_⟩
    rw [discloses, at?_blank, found]
    rfl
  | some handle =>
    cases handle with
    | closed id mode flags =>
      rw [request_closed found]
      refine Ensures.pure ⟨.ok (), ?_⟩
      rw [discloses, at?_blank, found]
      exact (conclude_blank session place
        ⟨.closed id mode flags, .error (.fatal .closedHandle), [.fatal .closedHandle]⟩).symm
    | live live =>
      rw [Session.request, found]
      obtain ⟨kept, keeps⟩ := ready place live found
      refine (LiveHandle.respond_discloses kept.toFitted kept.toSound kept.short keeps
        request).bind fun outcome disclosed => Ensures.pure ?_
      obtain ⟨verdict, same⟩ := disclosed
      refine ⟨verdict, ?_⟩
      rw [discloses, at?_blank, found]
      change (session.conclude place outcome).blank = session.blank.conclude place _
      rw [← conclude_blank, same]

/-! ## Two runs -/

/-- The commands differ in their bytes at most, and keys are answered alike. -/
structure DifferInBytes (performed other : Command m × Step m) : Prop where
  commands : other.1.blank = performed.1.blank
  keys : performed.1.givesKey = true → other.2.answer = performed.2.answer

/-- The same records are logged, and the answers are the same but for the bytes of an output. -/
structure LookAlike (performed other : Command m × Step m) : Prop where
  events : other.2.events = performed.2.events
  answers : other.2.answer.blank = performed.2.answer.blank

/-- Lists that end with an element each are related if what is before is, and the ends are. -/
theorem forall₂_concat_iff {α β : Type} {related : α → β → Prop} {front : List α} {others : List β}
    {value : α} {other : β} :
    List.Forall₂ related (front ++ [value]) (others ++ [other]) ↔
      List.Forall₂ related front others ∧ related value other := by
  rw [← List.forall₂_reverse_iff, List.reverse_append, List.reverse_append]
  simp [List.forall₂_cons, List.forall₂_reverse_iff, and_comm]

variable [Monad m] [LawfulMonad m] {session other last otherLast : Session m}
  {step otherStep : Step m}

/-- Steps that differ in bytes, from sessions that do, leave sessions that do, and look alike. -/
theorem perform_alike (alike : other.blank = session.blank) (ready : session.Ready)
    (otherReady : other.Ready) {command otherCommand : Command m}
    (returned : MayReturn (session.perform command) step)
    (otherReturned : MayReturn (other.perform otherCommand) otherStep)
    (differ : DifferInBytes (command, step) (otherCommand, otherStep)) :
    otherStep.blank = step.blank := by
  obtain ⟨commands, keys⟩ := differ
  obtain ⟨rfl, plain⟩ | ⟨place, request, otherRequest, rfl, rfl, requests⟩ :=
    Command.cases_of_blank_eq commands.symm
  · obtain ⟨act, performed, blanks⟩ := overlooks_of_plain plain
    rw [performed] at returned otherReturned
    obtain rfl := returned (· = act session) (Ensures.pure rfl)
    obtain rfl := otherReturned (· = act other) (Ensures.pure rfl)
    rw [← blanks session, ← blanks other, alike]
  · obtain ⟨verdict, same⟩ := returned _ (request_discloses ready place request)
    obtain ⟨otherVerdict, otherSame⟩ :=
      otherReturned _ (request_discloses otherReady place otherRequest)
    rw [alike, requests] at otherSame
    rw [same, otherSame]
    refine discloses_eq fun given => ?_
    rw [← same, ← otherSame]
    rw [Request.givesKey_blank] at given
    exact congrArg Answer.blank (keys given)

omit [LawfulMonad m] in
/-- Runs that differ in bytes register the same algorithms. -/
theorem RegisterLengthKeepers.of_differ {history otherHistory : List (Command m × Step m)}
    (keepers : RegisterLengthKeepers history)
    (differ : List.Forall₂ DifferInBytes history otherHistory) :
    RegisterLengthKeepers otherHistory := by
  induction differ with
  | nil => exact keepers
  | @cons performed other _ _ here _ inductionHypothesis =>
    have rest := inductionHypothesis fun later there => keepers later (List.mem_cons_of_mem _ there)
    intro given there algorithm keepAs registers
    rcases List.mem_cons.mp there with rfl | later
    · refine keepers performed List.mem_cons_self algorithm keepAs ?_
      obtain ⟨same, _⟩ | ⟨_, _, _, _, asks, _⟩ := Command.cases_of_blank_eq here.commands.symm
      · exact same.symm.trans registers
      · cases registers.symm.trans asks
    · exact rest given later algorithm keepAs registers

/-- Of two runs that differ in bytes only, from a new registry, with algorithms that keep
lengths, and in which the keys are answered alike, all steps look alike, and the sessions that
they lead to differ in bytes only. -/
theorem only_lengths_disclosed {start : Registry m} (begun : start = .fresh ∨ start = .empty)
    {history otherHistory : List (Command m × Step m)}
    (run : Run { registry := start } history last)
    (otherRun : Run { registry := start } otherHistory otherLast)
    (keepers : RegisterLengthKeepers history)
    (differ : List.Forall₂ DifferInBytes history otherHistory) :
    List.Forall₂ LookAlike history otherHistory ∧ otherLast.blank = last.blank := by
  induction run generalizing otherHistory otherLast with
  | begun =>
    cases otherRun with
    | begun => exact ⟨.nil, rfl⟩
    | performed => simp at differ
  | @performed history session command step run returned inductionHypothesis =>
    cases otherRun with
    | begun => simp at differ
    | @performed otherHistory other otherCommand otherStep otherRun otherReturned =>
      obtain ⟨earlier, here⟩ := forall₂_concat_iff.mp differ
      have known : RegisterLengthKeepers history :=
        fun performed there => keepers performed (List.mem_append_left _ there)
      obtain ⟨looks, alike⟩ := inductionHypothesis otherRun known earlier
      have same := perform_alike alike (run.ready begun known)
        (otherRun.ready begun (known.of_differ earlier)) returned otherReturned here
      obtain ⟨sessions, answers, events⟩ := Step.mk.inj same
      exact ⟨forall₂_concat_iff.mpr ⟨looks, events, answers⟩, sessions⟩

/-- What is recorded of commands are these commands. -/
theorem recorded_commands (session : Session Id) (commands : List (Command Id)) :
    (session.recorded commands).map Prod.fst = commands := by
  induction commands generalizing session with
  | nil => rfl
  | cons command rest inductionHypothesis =>
    exact congrArg (List.cons command) (inductionHypothesis (session.after command))

/-- The masking cipher is used with keys, chaining values and messages of two kinds. A key is
refused, a chaining value is cut, and a message is misaligned; the outputs differ, and the rest
does not. -/
theorem only_lengths_disclosed_masking :
    let commands (byte : UInt8) : List (Command Id) :=
      [.register Specimen.masking (some "pin"), .openHandle "handle" (.pin "pin") .cbc {},
        .request "handle" (.setKey []), .request "handle" (.setKey [byte]),
        .request "handle" (.setIv [byte, 0]),
        .request "handle" (.encryptInPlace (List.replicate 16 byte)),
        .request "handle" (.decrypt [byte] [byte, byte]), .close "handle"]
    let session : Session Id := { registry := .empty }
    let outputs (history : List (Command Id × Step Id)) : List Bytes :=
      history.filterMap fun performed =>
        match performed.2.answer with
        | .wrote (.ok ()) output => some output
        | _ => none
    List.Forall₂ LookAlike (session.recorded (commands 1)) (session.recorded (commands 2)) ∧
      outputs (session.recorded (commands 1)) ≠ outputs (session.recorded (commands 2)) := by
  intro commands session outputs
  have keepers : RegisterLengthKeepers (session.recorded (commands 1)) := by
    intro performed there algorithm keepAs registers
    have listed : performed.1 ∈ commands 1 := by
      rw [← recorded_commands session (commands 1)]
      exact List.mem_map_of_mem there
    rw [registers] at listed
    obtain ⟨rfl, _⟩ : algorithm = Specimen.masking ∧ keepAs = some "pin" := by
      simpa [commands] using listed
    exact Specimen.masking_computes.keepsLengths (by decide) rfl
  have differ : List.Forall₂ DifferInBytes (session.recorded (commands 1))
      (session.recorded (commands 2)) := by
    have keyless {performed other : Command Id × Step Id}
        (same : other.1.blank = performed.1.blank) (plain : performed.1.givesKey = false) :
        DifferInBytes performed other :=
      ⟨same, fun given => absurd given (Bool.eq_false_iff.mp plain)⟩
    have keyed {performed other : Command Id × Step Id}
        (same : other.1.blank = performed.1.blank) (result : Except Refusal Unit)
        (answered : performed.2.answer.result? = some result)
        (otherAnswered : other.2.answer.result? = some result) : DifferInBytes performed other :=
      ⟨same, fun _ => (Answer.eq_done otherAnswered).trans (Answer.eq_done answered).symm⟩
    refine .cons (keyless rfl rfl) <| .cons (keyless rfl rfl) <|
      .cons (keyed rfl (.error (.argument (.keyRefused (.rejected "empty key")))) ?_ ?_) <|
      .cons (keyed rfl (.ok ()) ?_ ?_) <| .cons (keyless rfl rfl) <| .cons (keyless rfl rfl) <|
      .cons (keyless rfl rfl) <| .cons (keyless rfl rfl) .nil
    all_goals decide +kernel
  refine ⟨?_, by decide +kernel⟩
  exact (only_lengths_disclosed (.inr rfl) (Run.ofCommands session _) (Run.ofCommands session _)
    keepers differ).1

end Session

end CipherEngine
