import CipherEngine.Registry.Basic
import CipherEngine.Aes.Cipher

/-!
# Operations on the registry

Every operation that looks at the registry first makes sure that the built-in
algorithms are there, so they are installed once, by whatever comes first.
Releasing and copying a pin go by the pin and do not look.

An operation returns the registry after it, its value, and what it logged.
-/
namespace CipherEngine

variable {m : Type → Type}

/-- What an operation on the registry leaves and says. -/
structure Registry.Effect (m : Type → Type) (α : Type) where
  registry : Registry m
  value : α
  events : List Event := []

/-- The algorithms that a registry has from the start, with their ids. -/
def builtins [Monad m] : List (AlgorithmId × Algorithm m) :=
  [(7, Aes.algorithm .aes128), (8, Aes.algorithm .aes192), (9, Aes.algorithm .aes256)]

namespace Registry

section Preparation

variable [Monad m]

/-- The registry with the built-in algorithms in it. -/
def install (registry : Registry m) : Registry m :=
  { builtins.foldl (fun registry (id, algorithm) => registry.enter id algorithm) registry with
    prepared := true }

/-- The registry ready to be looked at. -/
def prepare (registry : Registry m) : Effect m Unit :=
  if registry.prepared then ⟨registry, (), []⟩
  else ⟨registry.install, (), [.builtinsRegistered]⟩

/-- The registry is prepared once it is ready. -/
theorem prepared_prepare (registry : Registry m) : registry.prepare.registry.prepared = true := by
  rw [prepare]
  split
  · next prepared => exact prepared
  · rfl

/-- A prepared registry is ready. -/
theorem prepare_of_prepared {registry : Registry m} (prepared : registry.prepared = true) :
    registry.prepare = ⟨registry, (), []⟩ := by
  rw [prepare, if_pos prepared]

/-- Reads something off the registry. -/
def inspect (registry : Registry m) {α : Type} (view : Registry m → α) : Effect m α :=
  let ready := registry.prepare
  ⟨ready.registry, view ready.registry, ready.events⟩

/-- Pins the entry that a search finds. -/
def lookup (registry : Registry m) (search : Registry m → Option (Entry m)) :
    Effect m (Option (Pin m)) :=
  let ready := registry.prepare
  match search ready.registry with
  | none => ⟨ready.registry, none, ready.events⟩
  | some entry => ⟨ready.registry.addPin entry.serial, some entry.pin, ready.events⟩

/-- Pins the algorithm with an id. -/
def lookupId (registry : Registry m) (id : AlgorithmId) : Effect m (Option (Pin m)) :=
  registry.lookup fun registry => registry.find? id

/-- Pins the algorithm that goes by a name. -/
def lookupName (registry : Registry m) (name : String) : Effect m (Option (Pin m)) :=
  registry.lookup fun registry => registry.findName? name

/-- Pins the algorithm that has an object identifier. -/
def lookupOid (registry : Registry m) (oid : String) : Effect m (Option (Pin m)) :=
  registry.lookup fun registry => registry.findOid? oid

/-- Registers an algorithm under the next free id and pins it. -/
def register (registry : Registry m) (algorithm : Algorithm m) :
    Effect m (Except Refusal (Pin m)) :=
  let ready := registry.prepare
  let id := freeId ready.registry.nextId ready.registry.entries
  if id + 1 < idLimit then
    let entered := { ready.registry.enter id algorithm with nextId := id + 1 }
    ⟨entered, .ok ⟨ready.registry.nextSerial, id, algorithm⟩,
      ready.events ++ [.registered id algorithm.name]⟩
  else ⟨ready.registry, .error (.operational .idsExhausted), ready.events⟩

/-- Refuses new handles for an id from now on. -/
def disable (registry : Registry m) (id : AlgorithmId) : Effect m Unit :=
  let ready := registry.prepare
  match ready.registry.find? id with
  | none => ⟨ready.registry, (), ready.events ++ [.disableUnknown id]⟩
  | some entry =>
    ⟨ready.registry.modify entry.serial fun entry => { entry with disabled := true }, (),
      ready.events ++ [.disabled id]⟩

/-- The ids of all registered algorithms, ascending. -/
def list (registry : Registry m) : Effect m (List AlgorithmId) :=
  registry.inspect ids

/-- The id that a name, other name or object identifier stands for. Object
identifiers come first. -/
def resolve (registry : Registry m) (name : String) : Effect m (Option AlgorithmId) :=
  registry.inspect fun registry =>
    ((registry.findOid? name).or (registry.findName? name)).map Entry.id

/-- The mode that an object identifier stands for. -/
def modeOfOid (registry : Registry m) (oid : String) : Effect m (Option Mode) :=
  registry.inspect fun registry => registry.findMode? oid

/-- The name of an algorithm. -/
def nameOf (registry : Registry m) (id : AlgorithmId) : Effect m (Option String) :=
  registry.inspect fun registry => (registry.find? id).map fun entry => entry.algorithm.name

/-- The registry on one line: the ids it lists. -/
def describe (registry : Registry m) : Effect m String :=
  registry.inspect fun registry =>
    Text.record "Registry" [⟨"algorithms", Text.sequence (registry.ids.map toString)⟩]

end Preparation

/-- A second pin on the entry of a pin. -/
def copyPin (registry : Registry m) (pin : Pin m) : Effect m (Pin m) :=
  ⟨registry.addPin pin.serial, pin, []⟩

/-- Gives a pin back. -/
def dropPin (registry : Registry m) (pin : Pin m) : Effect m Unit :=
  match registry.release pin with
  | (registry, true) => ⟨registry, (), [.removed pin.id pin.algorithm.name]⟩
  | (registry, false) => ⟨registry, (), []⟩

/-- Gives a pin back through the registry, which logs the request first. -/
def withdraw (registry : Registry m) (pin : Pin m) : Effect m Unit :=
  let dropped := registry.dropPin pin
  { dropped with events := .releasing pin.id :: dropped.events }

/-- Whether the entry of a pin refuses new handles. -/
def refusesHandles (registry : Registry m) (pin : Pin m) : Bool :=
  match registry.pinned? pin with
  | none => false
  | some entry => entry.disabled

/-- How many pins the entry of a pin has. -/
def pinCount (registry : Registry m) (pin : Pin m) : Nat :=
  match registry.pinned? pin with
  | none => 0
  | some entry => entry.pins

/-- A pin on one line. -/
def describePin (registry : Registry m) (pin : Pin m) : String :=
  Text.openRecord "EntryRef"
    [⟨"id", toString pin.id⟩, ⟨"name", Text.quoted pin.algorithm.name⟩,
      ⟨"disabled", Text.truth (registry.refusesHandles pin)⟩]

end Registry

end CipherEngine
