import CipherEngine.Handle.Request
import CipherEngine.Shelf

/-!
# Sessions

A session is a registry in use: pins and handles lie under names, and commands
go by those names. A command that names an empty place is skipped and does
nothing. A value put where another was takes its place, and the old one is let
go only after the new one is there, so an algorithm that both pin is never
without a pin in between.

Copies of a registry share one table, so a session has one registry, whichever
copy a command goes through.
-/
namespace CipherEngine

/-- What names an algorithm in a lookup. -/
inductive Target where
  | id (id : AlgorithmId)
  | name (name : String)
  | oid (oid : String)
deriving DecidableEq

/-- The algorithm a handle is opened on: by id, or by the pin under a name. -/
inductive Subject where
  | id (id : AlgorithmId)
  | pin (place : String)
deriving DecidableEq

/-- What may be done in a session. -/
inductive Command (m : Type → Type) where
  | register (algorithm : Algorithm m) (keepAs : Option String)
  | lookup (target : Target) (keepAs : Option String)
  | copyPin (pin : String) (keepAs : Option String)
  | withdraw (pin : String)
  | dropPin (pin : String)
  | entry (pin : String)
  | entryAlgorithm (pin : String)
  | describePin (pin : String)
  | list
  | describeRegistry
  | copyRegistry
  | disable (id : AlgorithmId)
  | info (id : AlgorithmId) (query : Query)
  | keyLength (id : AlgorithmId)
  | blockLength (id : AlgorithmId)
  | availability (id : AlgorithmId)
  | resolve (name : String)
  | modeOfOid (oid : String)
  | nameOf (id : AlgorithmId)
  /-- Opens a handle in whatever memory the machine gives just then. -/
  | openHandle (handle : String) (subject : Subject) (mode : Mode) (flags : Flags)
      (machine : Machine := .common)
  | discardHandle (handle : String)
  | closeNothing
  | close (handle : String)
  | request (handle : String) (request : Request)
  | describeHandle (handle : String)

/-- What a pin shows of its entry. -/
structure EntryView where
  id : AlgorithmId
  name : String
  pins : Nat
  disabled : Bool
deriving DecidableEq

/-- The answer to a command. -/
inductive Answer (m : Type → Type) where
  | skipped
  | done (result : Except Refusal Unit)
  | wrote (result : Except Refusal Unit) (output : Bytes)
  | entry (view : Option EntryView)
  | algorithm (algorithm : Algorithm m)
  | id (id : Option AlgorithmId)
  | ids (ids : List AlgorithmId)
  | mode (mode : Option Mode)
  | text (text : Option String)
  | flags (flags : Flags)
  | size (size : Nat)
  | truth (value : Bool)
  | halted (halt : Halt)

/-- A registry in use, with the pins and handles that are held. -/
structure Session (m : Type → Type) where
  registry : Registry m
  pins : Shelf (Pin m) := []
  handles : Shelf (Handle m) := []

variable {m : Type → Type}

/-- What a command leaves and says. -/
structure Session.Step (m : Type → Type) where
  session : Session m
  answer : Answer m
  events : List Event := []

/-- A live handle's reply as an answer. -/
def Answer.ofReply : Reply → Answer m
  | .done verdict => .done verdict
  | .wrote verdict buffer => .wrote verdict buffer
  | .algorithm number => .id (some number)
  | .mode chosen => .mode (some chosen)
  | .flags options => .flags options
  | .size bytes => .size bytes
  | .truth held => .truth held

/-- A verdict as an answer. -/
def Answer.ofVerdict {α : Type} (answer : α → Answer m) : Verdict α → Answer m
  | .error cause => .halted (.fatal cause)
  | .ok (.error cause) => .done (.error cause)
  | .ok (.ok value) => answer value

namespace Session

/-- A command that does nothing. -/
def skip (session : Session m) : Step m := ⟨session, .skipped, []⟩

/-- An answer that changes nothing but the registry. -/
def answered {α : Type} (session : Session m) (effect : Registry.Effect m α)
    (answer : α → Answer m) : Step m :=
  ⟨{ session with registry := effect.registry }, answer effect.value, effect.events⟩

/-- Runs a command on the pin under a name. -/
def withPin (session : Session m) (place : String) (command : Pin m → Step m) : Step m :=
  match session.pins.at? place with
  | none => session.skip
  | some pin => command pin

/-- What a pin shows. -/
def view (session : Session m) (pin : Pin m) : EntryView :=
  ⟨pin.id, pin.algorithm.name, session.registry.pinCount pin, session.registry.refusesHandles pin⟩

/-- Gives a pin back. -/
def giveBack (session : Session m) (pin : Pin m) : Session m × List Event :=
  let dropped := session.registry.dropPin pin
  ({ session with registry := dropped.registry }, dropped.events)

/-- Puts a pin under a name and gives back the one that was there, or gives the
pin back at once if it has no name. -/
def settle (session : Session m) (pin : Pin m) (keepAs : Option String) :
    Session m × List Event :=
  match keepAs with
  | none => session.giveBack pin
  | some place =>
    let kept := { session with pins := session.pins.put place pin }
    match session.pins.at? place with
    | none => (kept, [])
    | some old => kept.giveBack old

/-- Shows a pin, then settles it. -/
def present (session : Session m) (pin : Pin m) (keepAs : Option String)
    (events : List Event) : Step m :=
  let shown := session.view pin
  let (session, settled) := session.settle pin keepAs
  ⟨session, .entry (some shown), events ++ settled⟩

/-- Registers an algorithm. -/
def register [Monad m] (session : Session m) (algorithm : Algorithm m)
    (keepAs : Option String) : Step m :=
  let registered := session.registry.register algorithm
  let session := { session with registry := registered.registry }
  match registered.value with
  | .error cause => ⟨session, .done (.error cause), registered.events⟩
  | .ok pin => session.present pin keepAs registered.events

/-- Pins what a target names. -/
def find [Monad m] (registry : Registry m) : Target → Registry.Effect m (Option (Pin m))
  | .id id => registry.lookupId id
  | .name name => registry.lookupName name
  | .oid oid => registry.lookupOid oid

/-- Looks an algorithm up and pins it. -/
def lookup [Monad m] (session : Session m) (target : Target) (keepAs : Option String) : Step m :=
  let looked := find session.registry target
  let session := { session with registry := looked.registry }
  match looked.value with
  | none => ⟨session, .entry none, looked.events⟩
  | some pin => session.present pin keepAs looked.events

/-- Takes a pin from its place and lets it go. -/
def letGo (session : Session m) (place : String)
    (release : Registry m → Pin m → Registry.Effect m Unit) : Step m :=
  session.withPin place fun pin =>
    let released := release session.registry pin
    ⟨{ session with registry := released.registry, pins := session.pins.without place },
      .done (.ok ()), released.events⟩

/-- The id of a handle's subject, if its place is not empty. -/
def subjectId (session : Session m) : Subject → Option AlgorithmId
  | .id id => some id
  | .pin place => (session.pins.at? place).map Pin.id

/-- Opens a handle and puts it in its place. A handle that was there is closed,
after the new one is open. -/
def openHandle [Monad m] (session : Session m) (place : String) (id : AlgorithmId)
    (mode : Mode) (flags : Flags) (machine : Machine) : Step m :=
  let opened := Handle.openOn session.registry id mode flags machine
  match opened.value with
  | .error cause =>
    ⟨{ session with registry := opened.registry }, .done (.error cause), opened.events⟩
  | .ok handle =>
    let handles := session.handles.put place handle
    match session.handles.at? place with
    | none =>
      ⟨{ session with registry := opened.registry, handles }, .done (.ok ()), opened.events⟩
    | some old =>
      let discarded := Handle.discard opened.registry old
      ⟨{ session with registry := discarded.registry, handles }, .done (.ok ()),
        opened.events ++ discarded.events⟩

/-- Takes a handle from its place and lets it go. -/
def discardHandle (session : Session m) (place : String) : Step m :=
  match session.handles.at? place with
  | none => session.skip
  | some handle =>
    let discarded := Handle.discard session.registry handle
    ⟨{ session with registry := discarded.registry, handles := session.handles.without place },
      .done (.ok ()), discarded.events⟩

/-- Closes a handle, which stays in its place. -/
def close (session : Session m) (place : String) : Step m :=
  match session.handles.at? place with
  | none => session.skip
  | some handle =>
    let closed := Handle.close session.registry handle
    match closed.value with
    | .error cause =>
      ⟨{ session with registry := closed.registry }, .halted (.fatal cause), closed.events⟩
    | .ok handle =>
      ⟨{ session with registry := closed.registry, handles := session.handles.put place handle },
        .done (.ok ()), closed.events⟩

/-- Sends a request to a handle. -/
def request [Monad m] (session : Session m) (place : String) (request : Request) :
    m (Step m) := do
  match session.handles.at? place with
  | none => pure session.skip
  | some handle => do
    let outcome ← handle.respond request
    pure ⟨{ session with handles := session.handles.put place outcome.handle },
      match outcome.reply with
      | .ok reply => Answer.ofReply reply
      | .error halt => .halted halt,
      outcome.events⟩

/-- Carries out a command. -/
def perform [Monad m] (session : Session m) : Command m → m (Step m)
  | .register algorithm keepAs => pure (session.register algorithm keepAs)
  | .lookup target keepAs => pure (session.lookup target keepAs)
  | .copyPin pin keepAs =>
    pure <| session.withPin pin fun pin =>
      let copied := session.registry.copyPin pin
      { session with registry := copied.registry }.present copied.value keepAs copied.events
  | .withdraw pin => pure (session.letGo pin Registry.withdraw)
  | .dropPin pin => pure (session.letGo pin Registry.dropPin)
  | .entry pin =>
    pure <| session.withPin pin fun pin => ⟨session, .entry (some (session.view pin)), []⟩
  | .entryAlgorithm pin =>
    pure <| session.withPin pin fun pin => ⟨session, .algorithm pin.algorithm, []⟩
  | .describePin pin =>
    pure <| session.withPin pin fun pin =>
      ⟨session, .text (some (session.registry.describePin pin)), []⟩
  | .list => pure (session.answered session.registry.list .ids)
  | .describeRegistry =>
    pure (session.answered session.registry.describe fun text => .text (some text))
  | .copyRegistry | .closeNothing => pure ⟨session, .done (.ok ()), []⟩
  | .disable id => pure (session.answered (session.registry.disable id) fun _ => .done (.ok ()))
  | .info id query =>
    pure <| session.answered (session.registry.info id query) <|
      Answer.ofVerdict fun info => .text (some info.describe)
  | .keyLength id =>
    pure (session.answered (session.registry.keyLength id) (Answer.ofVerdict .size))
  | .blockLength id =>
    pure (session.answered (session.registry.blockLength id) (Answer.ofVerdict .size))
  | .availability id =>
    pure <| session.answered (session.registry.availability id) <|
      Answer.ofVerdict fun _ => .done (.ok ())
  | .resolve name => pure (session.answered (session.registry.resolve name) .id)
  | .modeOfOid oid => pure (session.answered (session.registry.modeOfOid oid) .mode)
  | .nameOf id => pure (session.answered (session.registry.nameOf id) .text)
  | .openHandle place subject mode flags machine =>
    pure <| match session.subjectId subject with
      | none => session.skip
      | some id => session.openHandle place id mode flags machine
  | .discardHandle place => pure (session.discardHandle place)
  | .close place => pure (session.close place)
  | .request place request => session.request place request
  | .describeHandle place =>
    pure <| match session.handles.at? place with
      | none => session.skip
      | some handle => ⟨session, .text (some handle.describe), []⟩

/-- Carries out commands in order, up to the first that ends the program.
Returns what is left and every step. -/
def performAll [Monad m] (session : Session m) : List (Command m) → m (Session m × List (Step m))
  | [] => pure (session, [])
  | command :: rest => do
    let step ← session.perform command
    match step.answer with
    | .halted _ => pure (step.session, [step])
    | _ => do
      let (last, others) ← performAll step.session rest
      pure (last, step :: others)

end Session

end CipherEngine
