import CipherEngine.Proofs.Handle.Representation
import CipherEngine.Proofs.Session.Builtins
import CipherEngine.Proofs.Session.Isolation

/-!
# Handles in a session

Whatever commands do, a live handle in a session is as opening has judged it and as requests
keep it. Its algorithm is the one of an entry, so it was registered, or is built in; and AES
keeps lengths. So if every algorithm that is registered keeps lengths, what holds of a single
handle and its requests holds of every handle in the session.
-/
namespace CipherEngine

variable {m : Type → Type}

/-- The handle is as it was left by opening or by a request. -/
structure LiveHandle.Kept (handle : LiveHandle m) : Prop extends Fitted handle, Sound handle where
  short : handle.Short

/-- A value in a place is on the shelf. -/
theorem Shelf.mem_of_at? {α : Type} {shelf : Shelf α} {name : String} {value : α}
    (found : shelf.at? name = some value) : ∃ place ∈ shelf, place.2 = value := by
  obtain ⟨place, there, same⟩ := Option.map_eq_some_iff.mp found
  exact ⟨place, List.mem_of_find?_eq_some there, same⟩

namespace Session

open Registry

/-- If the handle in the place is live and its algorithm keeps lengths, the handle is kept. -/
def KeepsAt [Monad m] (session : Session m) (place : String) : Prop :=
  ∀ live, session.handles.at? place = some (.live live) →
    live.pin.algorithm.KeepsLengths → live.Kept

variable [Monad m] [LawfulMonad m] {session : Session m} {place : String}

omit [LawfulMonad m] in
/-- No live handle, no condition. -/
theorem keepsAt_of_none (none : ∀ live, session.handles.at? place ≠ some (.live live)) :
    session.KeepsAt place :=
  fun live found => absurd found (none live)

/-- A handle that is opened is kept. -/
theorem openHandle_keepsAt (keeps : session.KeepsAt place) (id : AlgorithmId) (mode : Mode)
    (flags : Flags) (machine : Machine) :
    (session.openHandle place id mode flags machine).session.KeepsAt place := by
  rw [openHandle]
  cases opened : (Handle.openOn session.registry id mode flags machine).value with
  | error cause => exact keeps
  | ok handle =>
    have put : ∀ live, (session.handles.put place handle).at? place = some (.live live) →
        live.pin.algorithm.KeepsLengths → live.Kept := by
      intro live there lengths
      rw [Shelf.at?_put_self] at there
      obtain rfl := Option.some.inj there
      have reachable := LiveHandle.Reachable.opened opened
      exact ⟨reachable.fitted, reachable.sound, reachable.short lengths⟩
    dsimp only
    cases session.handles.at? place <;> exact put

/-- And it is still kept after a request. -/
theorem request_keepsAt (keeps : session.KeepsAt place) (request : Request) :
    Ensures (session.request place request) fun step => step.session.KeepsAt place := by
  cases found : session.handles.at? place with
  | none =>
    rw [Session.request, found]
    exact Ensures.pure keeps
  | some handle =>
    cases handle with
    | closed id mode flags =>
      rw [request_closed found]
      refine Ensures.pure (keepsAt_of_none fun live there => ?_)
      cases (Shelf.at?_put_self _ place _).symm.trans there
    | live live =>
      rw [Session.request, found]
      by_cases lengths : live.pin.algorithm.KeepsLengths
      · have kept := keeps live found lengths
        refine (LiveHandle.respond_leaves kept.toFitted kept.toSound kept.short lengths
          request).bind fun outcome left => Ensures.pure fun next there _ => ?_
        obtain ⟨_, after, live, short, leaves⟩ := left
        rw [Shelf.at?_put_self, live] at there
        cases there
        exact ⟨kept.toFitted.of_sameShape leaves.shape, leaves.sound kept.toSound, short⟩
      · refine (LiveHandle.respond_keeps live request).bind fun outcome left =>
          Ensures.pure fun next there nextLengths => ?_
        obtain ⟨after, live, leaves⟩ := left
        rw [Shelf.at?_put_self, live] at there
        cases there
        rw [leaves.shape.pin] at nextLengths
        exact absurd nextLengths lengths

/-- Whatever a command does, the handle in a place is kept. -/
theorem perform_keepsAt (keeps : session.KeepsAt place) (command : Command m) :
    Ensures (session.perform command) fun step => step.session.KeepsAt place := by
  cases command.concern place with
  | discards =>
    refine Ensures.pure ?_
    rw [discardHandle]
    split
    · exact keeps
    · refine keepsAt_of_none fun live there => ?_
      rw [Shelf.at?_without_self] at there
      cases there
  | closes =>
    refine Ensures.pure ?_
    rw [close]
    cases session.handles.at? place with
    | none => exact keeps
    | some handle =>
      cases handle with
      | closed id mode flags => exact keeps
      | live live =>
        refine keepsAt_of_none fun other there => ?_
        cases (Shelf.at?_put_self _ place _).symm.trans there
  | asks request => exact request_keepsAt keeps request
  | describes =>
    refine Ensures.pure ?_
    cases session.handles.at? place <;> exact keeps
  | opens subject mode flags machine =>
    refine Ensures.pure ?_
    cases session.subjectId subject with
    | none => exact keeps
    | some id => exact openHandle_keepsAt keeps id mode flags machine
  | elsewhere foreign unopened =>
    refine (session.perform_elsewhere foreign unopened).mono fun step alike live there =>
      keeps live ?_
    exact alike.symm.trans there

/-- Wherever commands lead, every live handle is kept. -/
theorem ReachableFrom.keepsAt {start : Registry m} (reachable : session.ReachableFrom start)
    (place : String) : session.KeepsAt place := by
  induction reachable with
  | begun => exact keepsAt_of_none fun live there => nomatch there
  | performed _ returned inductionHypothesis =>
    exact returned _ (perform_keepsAt inductionHypothesis _)

/-- Every algorithm that the commands register keeps lengths. -/
def RegisterLengthKeepers (history : List (Command m × Step m)) : Prop :=
  ∀ performed ∈ history, ∀ algorithm keepAs,
    performed.1 = .register algorithm keepAs → algorithm.KeepsLengths

omit [LawfulMonad m] in
/-- What was granted an id is one of those algorithms. -/
theorem RegisterLengthKeepers.granted {history : List (Command m × Step m)}
    (keepers : RegisterLengthKeepers history) {grant : Grant m} (listed : grant ∈ grants history) :
    grant.algorithm.KeepsLengths := by
  obtain ⟨⟨command, step⟩, performed, shown⟩ := List.mem_flatMap.mp listed
  rw [Option.mem_toList] at shown
  change command.grant? step.answer = some grant at shown
  rw [Command.grant?.eq_def] at shown
  split at shown
  · obtain rfl := Option.some.inj shown
    exact keepers _ performed _ _ rfl
  · cases shown

/-- All that is known of a single handle may be used of a live handle in the session. -/
def Ready (session : Session m) : Prop :=
  ∀ place live, session.handles.at? place = some (.live live) →
    live.Kept ∧ live.pin.algorithm.KeepsLengths

/-- In a run that registers algorithms that keep lengths, and no others, the session is always
ready. -/
theorem Run.ready {start : Registry m} (begun : start = .fresh ∨ start = .empty)
    {history : List (Command m × Step m)} (run : Run { registry := start } history session)
    (keepers : RegisterLengthKeepers history) : session.Ready := by
  intro place live found
  have reachable := run.reachable .begun
  obtain ⟨_, balanced, _⟩ := reachable.balanced begun
  obtain ⟨kept, there, same⟩ := Shelf.mem_of_at? found
  obtain ⟨entry, registered, _, pin⟩ :=
    (accounted_of_balanced balanced).handles kept there live same
  have lengths : entry.algorithm.KeepsLengths := by
    have present := (mem_of_find? registered).1
    rcases (run.course.numbered begun).named entry present with builtIn | granted
    · obtain ⟨variant, same⟩ := mem_builtins_iff.mp builtIn
      rw [(Prod.mk.inj same).2]
      exact Aes.algorithm_keepsLengths variant
    · exact keepers.granted granted
  have algorithm : live.pin.algorithm = entry.algorithm := congrArg Pin.algorithm pin.symm
  rw [← algorithm] at lengths
  exact ⟨reachable.keepsAt place live found lengths, lengths⟩

end Session

end CipherEngine
