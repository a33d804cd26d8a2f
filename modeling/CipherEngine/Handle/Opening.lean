import CipherEngine.Flags
import CipherEngine.Registry.Query
import CipherEngine.Storage.Arena

/-!
# Handles: opening and closing

A handle binds a pinned algorithm to a mode and keeps the state of one message
stream. A live handle has its pin and its arena; a closed one has neither, and
keeps only what its description shows.

Opening checks its conditions in a fixed order and gives the pin back at the
first that fails. Closing gives the pin back and wipes the arena.
-/
namespace CipherEngine

/-- A handle that may be used. -/
structure LiveHandle (m : Type → Type) where
  pin : Pin m
  arena : Arena
  mode : Mode
  flags : Flags
  /-- Keystream bytes at the end of the chaining value that are still unused. -/
  carry : Nat
  /-- Whether the last key was accepted. -/
  keyed : Bool

/-- A handle, live or closed. -/
inductive Handle (m : Type → Type) where
  | live (handle : LiveHandle m)
  | closed (id : AlgorithmId) (mode : Mode) (flags : Flags)

variable {m : Type → Type}

namespace LiveHandle

/-- The primitive the handle works with. -/
def primitive (handle : LiveHandle m) : Primitive m := handle.pin.algorithm.primitive

/-- Bytes of a block, as the algorithm declares. -/
def blockLength (handle : LiveHandle m) : Nat := handle.pin.algorithm.blockLength.toNat

/-- Whether messages are chained with ciphertext stealing. -/
def stealing (handle : LiveHandle m) : Bool :=
  handle.mode = .cbc && handle.flags.stealing

/-- Whether encryption yields only a MAC. -/
def mac (handle : LiveHandle m) : Bool :=
  handle.mode = .cbc && handle.flags.mac

/-- A handle on an arena, without a key. -/
def unkeyed (pin : Pin m) (arena : Arena) (mode : Mode) (flags : Flags) : LiveHandle m where
  pin := pin
  arena := arena
  mode := mode
  flags := flags
  carry := 0
  keyed := false

end LiveHandle

/-- The conditions on a handle that need no memory, in order. -/
def openingConditions (algorithm : Algorithm m) (id : AlgorithmId) (disabled : Bool)
    (mode : Mode) (flags : Flags) : Except Refusal Unit :=
  if disabled then .error (.configuration (.disabledAlgorithm id))
  else if !flags.consistent then .error (.configuration .conflictingOptions)
  else if !algorithm.primitive.supports mode then
    .error (.configuration (.unsupportedMode id mode))
  else if mode.chainsBlocks && algorithm.blockLength = 0 then
    .error (.configuration (.invalidLength id "block length" 0))
  else .ok ()

/-- The memory of a handle, from a machine. -/
def openingArena (algorithm : Algorithm m) (flags : Flags) (machine : Machine) :
    Except StorageRefusal Arena :=
  match Layout.ofSizes algorithm.contextSize algorithm.blockLength algorithm.contextAlignment with
  | .error cause => .error cause
  | .ok layout => Arena.ofLayout layout (if flags.secure then .locked else .standard) machine

/-- A warning, if the mode gives no confidentiality. -/
def openingWarnings (id : AlgorithmId) (mode : Mode) : List Event :=
  if mode = .none then [.openedPlain id] else []

namespace Handle

/-- Opens a handle on an algorithm of the registry, in memory of a machine. -/
def openOn [Monad m] (registry : Registry m) (id : AlgorithmId) (mode : Mode) (flags : Flags)
    (machine : Machine) : Registry.Effect m (Except Refusal (Handle m)) :=
  let looked := registry.lookupId id
  match looked.value with
  | none => ⟨looked.registry, .error (.configuration (.unknownAlgorithm id)), looked.events⟩
  | some pin =>
    let disabled := looked.registry.refusesHandles pin
    match openingConditions pin.algorithm id disabled mode flags with
    | .error cause =>
      let dropped := looked.registry.dropPin pin
      ⟨dropped.registry, .error cause, looked.events ++ dropped.events⟩
    | .ok () =>
      let warnings := openingWarnings id mode
      match openingArena pin.algorithm flags machine with
      | .error cause =>
        let dropped := looked.registry.dropPin pin
        ⟨dropped.registry, .error cause.toRefusal,
          looked.events ++ warnings ++ dropped.events⟩
      | .ok arena =>
        ⟨looked.registry, .ok (.live (LiveHandle.unkeyed pin arena mode flags)),
          looked.events ++ warnings ++ [.opened id pin.algorithm.name mode]⟩

/-- Closes a handle. A closed handle cannot be closed again. -/
def close (registry : Registry m) (handle : Handle m) :
    Registry.Effect m (Except FatalCondition (Handle m)) :=
  match handle with
  | .closed .. => ⟨registry, .error .closedHandle, [.fatal .closedHandle]⟩
  | .live handle =>
    let dropped := registry.dropPin handle.pin
    ⟨dropped.registry, .ok (.closed handle.pin.id handle.mode handle.flags),
      dropped.events ++ [.closed handle.pin.id]⟩

/-- Lets go of a handle: closes it if it is live. -/
def discard (registry : Registry m) (handle : Handle m) : Registry.Effect m Unit :=
  match handle with
  | .closed .. => ⟨registry, (), []⟩
  | .live handle =>
    let closed := close registry (.live handle)
    ⟨closed.registry, (), closed.events⟩

/-- A handle on one line. A closed handle may be described too. -/
def describe (handle : Handle m) : String :=
  let parts (id : AlgorithmId) (mode : Mode) (flags : Flags) (live keyed : Bool) :=
    Text.openRecord "CipherHandle"
      [⟨"algorithm", toString id⟩, ⟨"mode", mode.name⟩, ⟨"flags", flags.describe⟩,
        ⟨"live", Text.truth live⟩, ⟨"keyed", Text.truth keyed⟩]
  match handle with
  | .live handle => parts handle.pin.id handle.mode handle.flags true handle.keyed
  | .closed id mode flags => parts id mode flags false false

end Handle

end CipherEngine
