import CipherEngine.Proofs.Session.Isolation
import CipherEngine.Proofs.Session.Opening

/-!
# Disabling is permanent and leaves open handles alone

A disabled entry stays disabled as long as it is registered, and when it goes its id goes with
it. So once an id is disabled, no handle is opened under it again, and no question about it is
answered. A handle that was open before does not notice: it answers by itself, and the registry
has no part in that.
-/
namespace CipherEngine

variable {m : Type → Type} [Monad m]

namespace Registry

variable {registry : Registry m} {id : AlgorithmId}

/-- The id is unknown or disabled, and for that reason no handle is opened under it, and no
question about it is answered. -/
def Refuses (registry : Registry m) (id : AlgorithmId) : Prop :=
  ∃ cause, (cause = .unknownAlgorithm id ∨ cause = .disabledAlgorithm id) ∧
    (∀ mode flags machine,
      (Handle.openOn registry id mode flags machine).value = .error (.configuration cause)) ∧
    (registry.availability id).value = .ok (.error (.configuration cause)) ∧
    (registry.keyLength id).value = .ok (.error (.configuration cause)) ∧
    (registry.blockLength id).value = .ok (.error (.configuration cause)) ∧
    ∀ query, (registry.info id query).value = .ok (.error (.configuration cause))

/-- What may not be used is not asked. -/
theorem ask_refused {cause : Refusal} (refused : registry.prepare.registry.usable id = .error cause)
    {α : Type} (question : Algorithm m → Verdict α) :
    (registry.ask id question).value = .ok (.error cause) := by
  rw [ask, refused]

/-- Where no entry under the id takes handles, the id is refused. -/
theorem refuses_of_disabled {held : Multiset (Pin m)}
    (balanced : Ledger.Balanced ⟨registry.prepare.registry, held⟩)
    (disabled : ∀ entry, registry.prepare.registry.find? id = some entry →
      entry.disabled = true) : registry.Refuses id := by
  cases found : registry.prepare.registry.find? id with
  | none =>
    have refused : registry.prepare.registry.usable id =
        .error (.configuration (.unknownAlgorithm id)) := by
      rw [usable, found]
    exact ⟨_, .inl rfl, fun _ _ _ => (Handle.openOn_unknown found).1, ask_refused refused _,
      ask_refused refused _, ask_refused refused _, fun _ => ask_refused refused _⟩
  | some entry =>
    have refused : registry.prepare.registry.usable id =
        .error (.configuration (.disabledAlgorithm id)) := by
      rw [usable, found]
      exact if_pos (disabled entry found)
    refine ⟨_, .inr rfl, fun mode flags machine => ?_, ask_refused refused _, ask_refused refused _,
      ask_refused refused _, fun _ => ask_refused refused _⟩
    have judged : openingConditions entry.algorithm id entry.disabled mode flags =
        .error (.configuration (.disabledAlgorithm id)) := if_pos (disabled entry found)
    have opened := Handle.openOn_registered balanced found mode flags machine
    rw [judged] at opened
    exact opened.1

/-- After it has been disabled, an entry is there and takes no handles. -/
theorem find?_disable {entry : Entry m} (found : registry.prepare.registry.find? id = some entry) :
    ∃ after, (registry.disable id).registry.find? id = some after ∧ after.disabled = true := by
  rw [disable, found]
  dsimp only
  rw [find?_modify, found]
  · exact ⟨_, rfl, congrArg Entry.disabled (if_pos rfl)⟩
  · exact fun _ => rfl

end Registry

namespace Session

open Registry

variable [LawfulMonad m] {history : List (Command m × Step m)} {session : Session m}

/-- Once an id is disabled, it is refused for good. -/
theorem Run.refuses {start : Registry m} (begun : start = .fresh ∨ start = .empty)
    (run : Run { registry := start } history session) {id : AlgorithmId}
    (listed : id ∈ session.registry.list.value) {step : Step m}
    (disabled : MayReturn (session.perform (.disable id)) step) {later : List (Command m × Step m)}
    {last : Session m} (continued : step.session.Run later last) : last.registry.Refuses id := by
  obtain ⟨entry, found⟩ := mem_ids_iff.mp listed
  obtain ⟨after, located, refuses⟩ := find?_disable found
  have whole := run.performed disabled
  have prepared := (disabled _ (perform_follows session (.disable id))).prepared rfl
  obtain rfl :=
    disabled (· = session.answered (session.registry.disable id) fun _ => .done (.ok ()))
    (Ensures.pure rfl)
  have ready := prepare_of_prepared (continued.course.precedes.prepared prepared)
  obtain ⟨_, balanced, _⟩ := ((whole.trans continued).reachable .begun).balanced begun
  have readyBalanced : Ledger.Balanced ⟨last.registry.prepare.registry, last.held⟩ := by
    rw [ready]
    exact balanced
  refine refuses_of_disabled readyBalanced fun other otherFound => ?_
  rw [ready] at otherFound
  exact (whole.entry_once begun continued located otherFound).2 refuses

/-- The handle in the place gives the same answers from either session on. -/
structure Indifferent (place : String) (handle : LiveHandle m) (session other : Session m) :
    Prop where
  /-- To a sequence of commands, with the same effects, whatever others did before. -/
  alone : ∀ history last otherHistory otherLast, session.Run history last →
    other.Run otherHistory otherLast →
    (∀ performed ∈ history ++ otherHistory, performed.1.addresses place = false ∧
      performed.1.opensAt place = false) →
    ∀ commands, (∀ command ∈ commands, command.addresses place = true) →
      (fun left => left.2.map Step.answer) <$> last.performAll commands =
        (fun left => left.2.map Step.answer) <$> otherLast.performAll commands
  /-- To its own commands among those for others, if its responses are settled. -/
  among : (∀ live : LiveHandle m, live.pin = handle.pin →
      ∀ request, Settled (live.respond request)) →
    ∀ history last otherHistory otherLast, session.Run history last →
      other.Run otherHistory otherLast →
      (∀ performed ∈ history ++ otherHistory, performed.1.opensAt place = false) →
      (own place history).map Prod.fst = (own place otherHistory).map Prod.fst →
        own place history = own place otherHistory

/-- So it is if both sessions have it there. -/
theorem Alike.indifferent {place : String} {other : Session m} {handle : LiveHandle m}
    (there : session.handles.at? place = some (.live handle)) (alike : Alike place session other) :
    Indifferent place handle session other := by
  constructor
  · intro history last otherHistory otherLast run otherRun spared commands addressed
    obtain ⟨spares, otherSpares⟩ := List.forall_mem_append.mp spared
    have same : Alike place last otherLast :=
      (otherRun.alike otherSpares).trans (alike.trans (run.alike spares).symm)
    exact (performAll_own same addressed).map_eq fun _ _ answers => answers.symm
  · intro settled history last otherHistory otherLast run otherRun closed commands
    obtain ⟨closes, otherCloses⟩ := List.forall_mem_append.mp closed
    have solo := run.solo closes
    have otherSolo := otherRun.solo otherCloses
    rw [show other.handles.at? place = _ from alike] at otherSolo
    refine (solo.unique (fun live found => ?_) settled otherSolo commands).1
    cases there.symm.trans found
    rfl

/-- In every run on a new registry, once an id is disabled while it is registered, it is refused
for good, whatever commands follow. And a handle that was open then gives the same answers as if
it had not been disabled. -/
theorem disabling_permanent {start : Registry m} (begun : start = .fresh ∨ start = .empty)
    (run : Run { registry := start } history session) {id : AlgorithmId}
    (listed : id ∈ session.registry.list.value) {step : Step m}
    (disabled : MayReturn (session.perform (.disable id)) step) :
    (∀ later last, step.session.Run later last → last.registry.Refuses id) ∧
      ∀ place handle, session.handles.at? place = some (.live handle) →
        Indifferent place handle session step.session := by
  refine ⟨fun later last continued => run.refuses begun listed disabled continued, ?_⟩
  intro place handle there
  exact Alike.indifferent there (disabled _ (session.perform_elsewhere rfl rfl))

/-- The specimen is disabled while a handle is open on it. When its pin has been given back and it
has been registered again, its id is still refused; and the handle encrypts as if nothing had
happened. -/
theorem disabling_permanent_specimen :
    let commands : List (Command Id) :=
      [.register Specimen.algorithm (some "pin"), .openHandle "handle" (.pin "pin") .ofb {},
        .request "handle" (.setKey [1])]
    let later : List (Command Id) :=
      [.dropPin "pin", .register Specimen.algorithm (some "pin")]
    let messages : List (Command Id) :=
      [.request "handle" (.encryptInPlace [1, 2, 3, 4]), .close "handle"]
    let answers (session : Session Id) : Id (List (Answer Id)) :=
      (fun left => left.2.map Step.answer) <$> session.performAll messages
    let session := commands.foldl after { registry := .fresh }
    let disabled := session.after (.disable firstFreeId)
    let last := later.foldl after disabled
    last.registry.Refuses firstFreeId ∧ answers session = answers last := by
  intro commands later messages answers session disabled last
  have run : Run { registry := .fresh } (recorded { registry := .fresh } commands) session :=
    Run.ofCommands _ commands
  have continued : disabled.Run (disabled.recorded later) last := Run.ofCommands disabled later
  obtain ⟨refuses, indifferent⟩ := disabling_permanent (.inl rfl) run
    (show firstFreeId ∈ session.registry.list.value by decide +kernel)
    (MayReturn.self (session.perform (.disable firstFreeId)))
  have opened : ∃ handle, session.handles.at? "handle" = some (.live handle) := ⟨_, rfl⟩
  obtain ⟨handle, there⟩ := opened
  refine ⟨refuses _ last continued, ?_⟩
  exact (indifferent "handle" handle there).alone [] session _ last .begun continued
    (by decide +kernel) messages (by decide +kernel)

end Session

end CipherEngine
