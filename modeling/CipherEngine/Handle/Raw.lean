import CipherEngine.Handle.Request

/-!
# Handles as they are kept

A handle is kept in a record that opening fills and closing empties. A tag says whether it may
be used; the pin and the arena are there or not, apart from the tag and from each other. So
every request looks at the tag before anything else, and every step that needs the arena looks
whether it is there. What the record says of the algorithm is copied when the handle is
opened, and stays after it is closed.

Closing gives the pin back, wipes the arena and lets it go. A record that is let go of without
being closed is closed first, and what is then still in it goes with it.
-/
namespace CipherEngine

/-- The tag of a handle in ordinary memory. -/
def standardTag : UInt32 := 0x63640001

/-- The tag of a handle in locked memory. -/
def secureTag : UInt32 := 0x63640002

/-- The tag of a closed handle. -/
def closedTag : UInt32 := 0

/-- A handle as it is kept, live or closed. -/
structure RawHandle (m : Type → Type) where
  tag : UInt32
  /-- The pin, unless it was given back. -/
  entry : Option (Pin m)
  /-- The memory, unless it was let go. -/
  arena : Option Arena
  primitive : Primitive m
  id : AlgorithmId
  mode : Mode
  flags : Flags
  blockLength : Nat
  /-- Keystream bytes at the end of the chaining value that are still unused. -/
  carry : Nat
  /-- Whether the last key was accepted. -/
  keyed : Bool

/-- Why a request to a record has no result. -/
inductive RawStop where
  /-- It stops as a request to a live handle does. -/
  | stop (cause : Stop)
  /-- The handle may not be used, or its memory is gone, which ends the program. So much was
  logged before. -/
  | gone (logged : List Event)
deriving DecidableEq

/-- A stop of what is done when the output is written to. -/
def RawStop.after (output : Bytes) : RawStop → RawStop
  | .stop cause => .stop (cause.after output)
  | .gone logged => .gone logged

/-- What a request to a record leaves and says. -/
structure RawOutcome (m : Type → Type) where
  handle : RawHandle m
  reply : Except Halt Reply
  events : List Event := []

namespace Arena

/-- The state of a mode, out of an arena. -/
def chain (arena : Arena) (carry : Nat) : Chain where
  iv := arena.read .iv
  previous := arena.read .previous
  counter := arena.read .counter
  scratch := arena.read .scratch
  carry := carry

/-- The state of a mode, back into an arena. -/
def putChain (arena : Arena) (chain : Chain) : Arena :=
  (((arena.put .iv 0 chain.iv).put .previous 0 chain.previous).put .counter 0 chain.counter).put
    .scratch 0 chain.scratch

/-- An arena as the machine gets it back: whoever lets go of it, it is wiped as it goes. -/
def freed (arena : Arena) : Arena := arena.wipe

end Arena

variable {m : Type → Type}

namespace RawHandle

/-- Whether the tag is that of a handle that may be used. -/
def isLive (handle : RawHandle m) : Bool :=
  handle.tag = standardTag || handle.tag = secureTag

/-- Whether messages are chained with ciphertext stealing. -/
def stealing (handle : RawHandle m) : Bool :=
  handle.mode = .cbc && handle.flags.stealing

/-- Whether encryption yields only a MAC. -/
def mac (handle : RawHandle m) : Bool :=
  handle.mode = .cbc && handle.flags.mac

/-- Bytes of output that a request needs. -/
def requiredOutput (handle : RawHandle m) (direction : Direction) (inputLength : Nat) : Nat :=
  if direction = .encrypt && handle.mac then handle.blockLength else inputLength

/-- Whether an input must be a whole number of blocks. -/
def mustAlign (handle : RawHandle m) (inputLength : Nat) : Bool :=
  match handle.mode with
  | .ecb => true
  | .cbc => !(handle.stealing && handle.blockLength < inputLength)
  | _ => false

/-- The record with a state of the mode put back into an arena. -/
def withChain (handle : RawHandle m) (arena : Arena) (chain : Chain) : RawHandle m :=
  { handle with arena := some (arena.putChain chain), carry := chain.carry }

/-- A request that may stop. -/
abbrev Attempt (m : Type → Type) (α : Type) := ExceptT RawStop m α

section Requests

variable [Monad m]

/-- Ends a request with a refusal. -/
def refuse {α : Type} (cause : Refusal) : Attempt m α :=
  throw (.stop (.refused cause))

/-- A checked computation as part of a request. -/
def checked {α : Type} (computation : Checked m α) : Attempt m α :=
  ExceptT.adapt (fun cause => RawStop.stop (.fault cause)) computation

/-- Ends the program if the handle may not be used. -/
def requireLive (handle : RawHandle m) : Attempt m Unit :=
  if handle.isLive then pure () else throw (.gone [])

/-- Refuses a handle without a key. -/
def requireKey (handle : RawHandle m) : Attempt m Unit :=
  if handle.keyed then pure () else refuse (.configuration .noKey)

/-- The memory of the handle. The program ends if it is gone. -/
def requireArena (handle : RawHandle m) (logged : List Event) : Attempt m Arena :=
  match handle.arena with
  | some arena => pure arena
  | none => throw (.gone logged)

/-- The block cipher under the key of the handle, and the memory that the key lies in. -/
def cipher (handle : RawHandle m) : Attempt m (KeyedCipher m × Arena) :=
  match handle.primitive.block with
  | none => refuse (.configuration (.unsupportedMode handle.id handle.mode))
  | some block => do
    let arena ← handle.requireArena []
    pure ({ block, bulk := handle.primitive.bulk, context := arena.read .live }, arena)

/-- Refuses buffers that the handle cannot work on. -/
def requireFit (handle : RawHandle m) (direction : Direction) (inputLength outputLength : Nat) :
    Attempt m Unit := do
  let required := handle.requiredOutput direction inputLength
  if outputLength < required then
    refuse (.argument (.shortOutput required outputLength))
  else if handle.mustAlign inputLength then do
    let rest ← checked (Checked.remainder inputLength handle.blockLength)
    if rest = 0 then pure ()
    else refuse (.argument (.misaligned inputLength handle.blockLength))
  else pure ()

/-- Runs the stream transform on a buffer, with its place kept in the context. -/
def transformStream (handle : RawHandle m) (direction : Direction) (buffer : Bytes) :
    Attempt m (RawHandle m × Bytes) :=
  match handle.primitive.stream with
  | none => refuse (.configuration (.unsupportedMode handle.id handle.mode))
  | some stream => do
    let arena ← handle.requireArena []
    let context := arena.read .live
    let (context, output) ← ExceptT.lift (match direction with
      | .encrypt => stream.encrypt context buffer
      | .decrypt => stream.decrypt context buffer)
    pure ({ handle with arena := some (arena.put .live 0 context) }, output)

/-- Runs a mode that has a state on the state in the arena. -/
def chained (handle : RawHandle m)
    (computation : KeyedCipher m → Chain → Checked m (Chain × Bytes)) :
    Attempt m (RawHandle m × Bytes) := do
  let (cipher, arena) ← handle.cipher
  let (chain, output) ← checked (computation cipher (arena.chain handle.carry))
  pure (handle.withChain arena chain, output)

/-- Runs the mode on a buffer. -/
def transform (handle : RawHandle m) (direction : Direction) (buffer : Bytes) :
    Attempt m (RawHandle m × Bytes) :=
  match handle.mode with
  | .none => pure (handle, buffer)
  | .stream => handle.transformStream direction buffer
  | .ecb => do
    let (cipher, arena) ← handle.cipher
    let output ← checked (Codebook.transform cipher direction (arena.chain handle.carry) buffer)
    pure (handle, output)
  | .cbc =>
    handle.chained fun cipher chain =>
      match direction with
      | .encrypt => BlockChaining.encrypt cipher handle.stealing chain buffer
      | .decrypt => BlockChaining.decrypt cipher handle.stealing chain buffer
  | .cfb =>
    handle.chained fun cipher chain => CipherFeedback.transform cipher direction chain buffer
  | .ofb => handle.chained fun cipher chain => OutputFeedback.transform cipher chain buffer
  | .ctr => handle.chained fun cipher chain => Counter.transform cipher chain buffer

/-- Chains a message and writes the MAC over the front of the output. An input
without a whole block writes nothing. -/
def tagInto (handle : RawHandle m) (input output : Bytes) :
    Attempt m (RawHandle m × Bytes) := do
  let (cipher, arena) ← handle.cipher
  let (chain, written) ← checked (BlockChaining.mac cipher (arena.chain handle.carry) input)
  let handle := handle.withChain arena chain
  if written then do
    let (front, rest) ← checked (Checked.split handle.blockLength output)
    let tag ← checked (Checked.replace front chain.iv)
    pure (handle, tag ++ rest)
  else pure (handle, output)

/-- Transforms an input into the front of an output, where it is copied first. -/
def transformInto (handle : RawHandle m) (direction : Direction) (input output : Bytes) :
    Attempt m (RawHandle m × Bytes) := do
  let (_, rest) ← checked (Checked.split input.length output)
  let (handle, front) ←
    ExceptT.adapt (RawStop.after (input ++ rest)) (handle.transform direction input)
  pure (handle, front ++ rest)

/-- Encrypts an input into the front of an output. -/
def encrypt (handle : RawHandle m) (input output : Bytes) : Attempt m (RawHandle m × Bytes) := do
  handle.requireLive
  handle.requireKey
  handle.requireFit .encrypt input.length output.length
  if handle.mac then handle.tagInto input output
  else handle.transformInto .encrypt input output

/-- Encrypts a buffer in place. -/
def encryptInPlace (handle : RawHandle m) (buffer : Bytes) : Attempt m (RawHandle m × Bytes) := do
  handle.requireLive
  handle.requireKey
  handle.requireFit .encrypt buffer.length buffer.length
  if handle.mac then handle.tagInto buffer buffer
  else handle.transform .encrypt buffer

/-- Decrypts an input into the front of an output. -/
def decrypt (handle : RawHandle m) (input output : Bytes) : Attempt m (RawHandle m × Bytes) := do
  handle.requireLive
  handle.requireKey
  handle.requireFit .decrypt input.length output.length
  handle.transformInto .decrypt input output

/-- Decrypts a buffer in place. -/
def decryptInPlace (handle : RawHandle m) (buffer : Bytes) : Attempt m (RawHandle m × Bytes) := do
  handle.requireLive
  handle.requireKey
  handle.requireFit .decrypt buffer.length buffer.length
  handle.transform .decrypt buffer

/-- Gives a key to the primitive. An accepted key's context is kept as the template. -/
def setKey (handle : RawHandle m) (key : Bytes) :
    Attempt m (RawHandle m × Reply × List Event) := do
  handle.requireLive
  let arena ← handle.requireArena []
  let keying ← ExceptT.lift (handle.primitive.setKey (arena.read .live) key)
  let arena := arena.put .live 0 keying.context
  match keying.verdict with
  | .ok () => do
    let arena ← checked arena.commit
    pure ({ handle with arena := some arena, keyed := true }, .done (.ok ()), [])
  | .error cause =>
    pure ({ handle with arena := some arena, keyed := false }, .done (.error cause.toRefusal),
      [.keyRefused handle.id cause])

/-- Sets the chaining value, cut or padded with zeros to one block. A length that does not match
is logged before the memory is asked for. -/
def setIv (handle : RawHandle m) (iv : Bytes) :
    Attempt m (RawHandle m × Reply × List Event) := do
  handle.requireLive
  let logged :=
    if iv.length = handle.blockLength then [] else [.ivMismatch iv.length handle.blockLength]
  let arena ← handle.requireArena logged
  let arena ← checked ((arena.clear .iv).write .iv 0 (iv.take handle.blockLength))
  pure ({ handle with arena := some arena, carry := 0 }, .done (.ok ()), logged)

/-- Writes a counter into an arena: a block, or zeros if none or an empty one is given. -/
def putCounter (handle : RawHandle m) (arena : Arena) : (counter : Option Bytes) → Attempt m Arena
  | none => pure (arena.clear .counter)
  | some block =>
    if block.length = handle.blockLength then checked (arena.copy .counter block)
    else if block.isEmpty then pure (arena.clear .counter)
    else refuse (.argument (.counterLength handle.blockLength block.length))

/-- Sets the counter. -/
def setCounter (handle : RawHandle m) (counter : Option Bytes) :
    Attempt m (RawHandle m × Reply × List Event) := do
  handle.requireLive
  let arena ← handle.requireArena []
  let arena ← handle.putCounter arena counter
  pure ({ handle with arena := some arena }, .done (.ok ()), [])

/-- Returns to the state right after keying. -/
def reset (handle : RawHandle m) : Attempt m (RawHandle m × Reply × List Event) := do
  handle.requireLive
  handle.requireKey
  let arena ← handle.requireArena []
  let arena ← checked arena.restore
  pure ({ handle with
    arena := some ((((arena.clear .iv).clear .previous).clear .counter).clear .scratch)
    carry := 0 }, .done (.ok ()), [])

/-- Realigns the chaining value to the last block boundary, if the handle allows it and a call
has ended inside a block. It does nothing, and says nothing, if the memory is gone. -/
def syncFeedback (handle : RawHandle m) : Attempt m (RawHandle m × Reply × List Event) := do
  handle.requireLive
  if handle.flags.syncEnabled && handle.carry ≠ 0 then
    match handle.arena with
    | none => pure (handle, .done (.ok ()), [])
    | some arena => do
      let chain ← checked (CipherFeedback.realign (arena.chain handle.carry))
      pure (handle.withChain arena chain, .done (.ok ()), [])
  else pure (handle, .done (.ok ()), [])

/-- Changes one of two options that exclude each other. -/
def switch (handle : RawHandle m) (enable excluded : Bool) (change : Flags.Change) :
    Attempt m (RawHandle m × Reply × List Event) := do
  handle.requireLive
  if enable && excluded then refuse (.configuration .conflictingOptions)
  else pure ({ handle with flags := handle.flags.change change }, .done (.ok ()), [])

/-- Shows something of the record. -/
def tell (handle : RawHandle m) (reply : Reply) :
    Attempt m (RawHandle m × Reply × List Event) := do
  handle.requireLive
  pure (handle, reply, [])

/-- What a transform that goes through replies. -/
def wrote (transform : Attempt m (RawHandle m × Bytes)) :
    Attempt m (RawHandle m × Reply × List Event) := do
  let (after, output) ← transform
  pure (after, .wrote (.ok ()) output, [])

/-- How a refusal is answered: a transform gives the output back, spoiled as it is by then. -/
def refused (cause : Refusal) (touched : Option Bytes) : Request → Reply
  | .encrypt _ output => .wrote (.error cause) (Direction.encrypt.spoil (touched.getD output))
  | .decrypt _ output => .wrote (.error cause) (Direction.decrypt.spoil (touched.getD output))
  | .encryptInPlace buffer =>
    .wrote (.error cause) (Direction.encrypt.spoil (touched.getD buffer))
  | .decryptInPlace buffer =>
    .wrote (.error cause) (Direction.decrypt.spoil (touched.getD buffer))
  | _ => .done (.error cause)

/-- The outcome of a request. -/
def ended (handle : RawHandle m) (request : Request) :
    Except RawStop (RawHandle m × Reply × List Event) → RawOutcome m
  | .ok (after, reply, events) => ⟨after, .ok reply, events⟩
  | .error (.stop (.refused cause)) => ⟨handle, .ok (refused cause none request), []⟩
  | .error (.stop (.late cause touched)) => ⟨handle, .ok (refused cause (some touched) request), []⟩
  | .error (.stop (.fault cause)) => ⟨handle, .error (.fault cause), []⟩
  | .error (.gone logged) =>
    ⟨handle, .error (.fatal .closedHandle), logged ++ [.fatal .closedHandle]⟩

/-- Carries out a request. -/
def attempt (handle : RawHandle m) : Request → Attempt m (RawHandle m × Reply × List Event)
  | .setKey key => handle.setKey key
  | .setIv iv => handle.setIv iv
  | .setCounter counter => handle.setCounter counter
  | .syncFeedback => handle.syncFeedback
  | .setStealing enable => handle.switch enable handle.flags.mac (.stealing enable)
  | .setMac enable => handle.switch enable handle.flags.stealing (.mac enable)
  | .reset => handle.reset
  | .encrypt input output => wrote (handle.encrypt input output)
  | .decrypt input output => wrote (handle.decrypt input output)
  | .encryptInPlace buffer => wrote (handle.encryptInPlace buffer)
  | .decryptInPlace buffer => wrote (handle.decryptInPlace buffer)
  | .algorithm => handle.tell (.algorithm handle.id)
  | .mode => handle.tell (.mode handle.mode)
  | .flags => handle.tell (.flags handle.flags)
  | .blockLength => handle.tell (.size handle.blockLength)
  | .isKeyed => handle.tell (.truth handle.keyed)
  | .isSecure => handle.tell (.truth (handle.tag = secureTag))

/-- A request to a handle. -/
def respond (handle : RawHandle m) (request : Request) : m (RawOutcome m) := do
  let result ← (handle.attempt request).run
  pure (handle.ended request result)

end Requests

/-- Opens a handle on an algorithm of the registry, in memory of a machine. -/
def openOn [Monad m] (registry : Registry m) (id : AlgorithmId) (mode : Mode) (flags : Flags)
    (machine : Machine) : Registry.Effect m (Except Refusal (RawHandle m)) :=
  let looked := registry.lookupId id
  match looked.value with
  | none => ⟨looked.registry, .error (.configuration (.unknownAlgorithm id)), looked.events⟩
  | some entry =>
    let disabled := looked.registry.refusesHandles entry
    match openingConditions entry.algorithm id disabled mode flags with
    | .error cause =>
      let dropped := looked.registry.dropPin entry
      ⟨dropped.registry, .error cause, looked.events ++ dropped.events⟩
    | .ok () =>
      let warnings := openingWarnings id mode
      match openingArena entry.algorithm flags machine with
      | .error cause =>
        let dropped := looked.registry.dropPin entry
        ⟨dropped.registry, .error cause.toRefusal,
          looked.events ++ warnings ++ dropped.events⟩
      | .ok arena =>
        ⟨looked.registry, .ok {
            tag := if flags.secure then secureTag else standardTag
            entry := some entry
            arena := some arena
            primitive := entry.algorithm.primitive
            id, mode, flags
            blockLength := entry.algorithm.blockLength.toNat
            carry := 0
            keyed := false },
          looked.events ++ warnings ++ [.opened id entry.algorithm.name mode]⟩

/-- Gives a pin back, if there is one. -/
def dropEntry (registry : Registry m) : Option (Pin m) → Registry.Effect m Unit
  | none => ⟨registry, (), []⟩
  | some pin => registry.dropPin pin

/-- What closing does with a handle that may be used. Returns the record, and the memory that the
machine gets back. -/
def shut (registry : Registry m) (handle : RawHandle m) :
    Registry.Effect m (RawHandle m × Option Arena) :=
  let dropped := dropEntry registry handle.entry
  ⟨dropped.registry,
    ({ handle with entry := none, arena := none, tag := closedTag, keyed := false, carry := 0 },
      handle.arena.map fun arena => arena.wipe.freed),
    dropped.events ++ [.closed handle.id]⟩

/-- Closes a handle. A closed handle cannot be closed again. -/
def close (registry : Registry m) (handle : RawHandle m) :
    Registry.Effect m (Except FatalCondition (RawHandle m × Option Arena)) :=
  if handle.isLive then
    let shut := shut registry handle
    ⟨shut.registry, .ok shut.value, shut.events⟩
  else ⟨registry, .error .closedHandle, [.fatal .closedHandle]⟩

/-- Drops what is in a record. Returns the memory that the machine gets back. -/
def dropFields (registry : Registry m) (handle : RawHandle m) : Registry.Effect m (List Arena) :=
  let dropped := dropEntry registry handle.entry
  ⟨dropped.registry, (handle.arena.map Arena.freed).toList, dropped.events⟩

/-- Lets go of a handle: closes it if it may be used, and drops what is in the record. -/
def discard (registry : Registry m) (handle : RawHandle m) : Registry.Effect m (List Arena) :=
  if handle.isLive then
    let shut := shut registry handle
    let rest := dropFields shut.registry shut.value.1
    ⟨rest.registry, shut.value.2.toList ++ rest.value, shut.events ++ rest.events⟩
  else dropFields registry handle

/-- A handle on one line. A closed handle may be described too. -/
def describe (handle : RawHandle m) : String :=
  Text.openRecord "CipherHandle"
    [⟨"algorithm", toString handle.id⟩, ⟨"mode", handle.mode.name⟩,
      ⟨"flags", handle.flags.describe⟩, ⟨"live", Text.truth handle.isLive⟩,
      ⟨"keyed", Text.truth handle.keyed⟩]

end RawHandle

end CipherEngine
