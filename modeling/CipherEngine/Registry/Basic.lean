import CipherEngine.Algorithm
import CipherEngine.Event

/-!
# The registry and its entries

Registered algorithms lie in a list that ascends by id. An entry is known for
its whole life by a serial number that is given once, so a pin names the very
entry it was taken on and not just an id. An entry counts its pins: it leaves
the registry with the last of them. Built-in algorithms hold one pin of their
own, which nobody releases.
-/
namespace CipherEngine

/-- A registered algorithm. -/
structure Entry (m : Type → Type) where
  /-- Given once, to this entry only. -/
  serial : Nat
  id : AlgorithmId
  algorithm : Algorithm m
  /-- Whether new handles are refused. -/
  disabled : Bool
  /-- Outstanding pins. -/
  pins : Nat

/-- A claim on an entry, which keeps the entry registered. -/
structure Pin (m : Type → Type) where
  serial : Nat
  id : AlgorithmId
  algorithm : Algorithm m

/-- The registered algorithms, and the next numbers to give. -/
structure Registry (m : Type → Type) where
  /-- The entries in ascending order of ids. -/
  entries : List (Entry m)
  /-- The id of the next registration, if it is free. -/
  nextId : AlgorithmId
  nextSerial : Nat
  /-- Whether the built-in algorithms have been dealt with. -/
  prepared : Bool

/-- The first id for algorithms that are not built in. -/
def firstFreeId : AlgorithmId := 1024

/-- Ids are below this number. -/
def idLimit : Nat := UInt32.size

variable {m : Type → Type}

/-- The pin that names an entry. -/
def Entry.pin (entry : Entry m) : Pin m := ⟨entry.serial, entry.id, entry.algorithm⟩

/-- Puts an entry at its place in an ascending list, unless its id is taken. -/
def insertEntry (entry : Entry m) : List (Entry m) → List (Entry m)
  | [] => [entry]
  | first :: rest =>
    if entry.id < first.id then entry :: first :: rest
    else if entry.id = first.id then first :: rest
    else first :: insertEntry entry rest

/-- Takes off a leading `oid.` or `OID.`. -/
def stripOidLabel (oid : String) : String :=
  match oid.toList with
  | 'o' :: 'i' :: 'd' :: '.' :: rest => String.ofList rest
  | 'O' :: 'I' :: 'D' :: '.' :: rest => String.ofList rest
  | _ => oid

namespace Registry

/-- A registry without built-in algorithms. -/
def empty : Registry m := ⟨[], firstFreeId, 0, true⟩

/-- A registry that gets the built-in algorithms when it is first used. -/
def fresh : Registry m := ⟨[], firstFreeId, 0, false⟩

/-- The ids in use, ascending. -/
def ids (registry : Registry m) : List AlgorithmId := registry.entries.map Entry.id

/-- The entry with an id. -/
def find? (registry : Registry m) (id : AlgorithmId) : Option (Entry m) :=
  registry.entries.find? fun entry => entry.id = id

/-- The entry of smallest id that goes by a name. -/
def findName? (registry : Registry m) (name : String) : Option (Entry m) :=
  registry.entries.find? fun entry => entry.algorithm.answersTo name

/-- The entry of smallest id that has an object identifier. -/
def findOid? (registry : Registry m) (oid : String) : Option (Entry m) :=
  registry.entries.find? fun entry => (entry.algorithm.designation? (stripOidLabel oid)).isSome

/-- The mode that an object identifier stands for, by the entry of smallest id
that has it. -/
def findMode? (registry : Registry m) (oid : String) : Option Mode :=
  registry.entries.findSome? fun entry =>
    (entry.algorithm.designation? (stripOidLabel oid)).map Designation.mode

/-- The entry that a pin names. -/
def pinned? (registry : Registry m) (pin : Pin m) : Option (Entry m) :=
  registry.entries.find? fun entry => entry.serial = pin.serial

/-- Adds an entry with one pin. -/
def enter (registry : Registry m) (id : AlgorithmId) (algorithm : Algorithm m) : Registry m :=
  { registry with
    entries := insertEntry ⟨registry.nextSerial, id, algorithm, false, 1⟩ registry.entries
    nextSerial := registry.nextSerial + 1 }

/-- Changes the entry with a serial number. -/
def modify (registry : Registry m) (serial : Nat) (change : Entry m → Entry m) : Registry m :=
  { registry with
    entries := registry.entries.map fun entry =>
      if entry.serial = serial then change entry else entry }

/-- Adds a pin to an entry. -/
def addPin (registry : Registry m) (serial : Nat) : Registry m :=
  registry.modify serial fun entry => { entry with pins := entry.pins + 1 }

/-- Takes a pin off an entry. Says whether that was the last, and then the entry
is gone. -/
def release (registry : Registry m) (pin : Pin m) : Registry m × Bool :=
  match registry.pinned? pin with
  | none => (registry, false)
  | some entry =>
    if entry.pins = 1 then
      ({ registry with
        entries := registry.entries.filter fun other => other.serial ≠ pin.serial }, true)
    else
      (registry.modify pin.serial fun entry => { entry with pins := entry.pins - 1 }, false)

/-- The first free id from `candidate` on. Entries ascend, so one walk finds it. -/
def freeId (candidate : AlgorithmId) : List (Entry m) → AlgorithmId
  | [] => candidate
  | entry :: rest => freeId (if entry.id = candidate then candidate + 1 else candidate) rest

end Registry

end CipherEngine
