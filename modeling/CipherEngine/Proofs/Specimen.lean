import CipherEngine.Proofs.Handle.Reach
import CipherEngine.Standin.Flip
import CipherEngine.Standin.PositionStream
import Mathlib.Control.Traversable.Instances

/-!
# Specimens

Small algorithms and the handles on them, all without effects: the cipher that flips
every bit, with bulk routines, and one that masks with its key, both in blocks of
sixteen bytes, and the stream that counts. General statements are looked at here in an
instance.
-/
namespace CipherEngine

/-- A computation without effects may return the value that it is. -/
theorem MayReturn.self {α : Type} (value : α) : MayReturn (m := Id) value value := by
  rintro property ⟨certified, rfl⟩
  exact certified.2

/-- What is ensured of a computation without effects holds of its value. -/
theorem Ensures.of_run {α : Type} {computation : Id α} {property : α → Prop}
    (ensured : Ensures computation property) : property (Id.run computation) :=
  MayReturn.self computation property ensured

/-- The handle that a request leaves. -/
def LiveHandle.after (handle : LiveHandle Id) (request : Request) : LiveHandle Id :=
  match (Id.run (handle.respond request)).handle with
  | .live next => next
  | .closed .. => handle

/-- No request closes a handle, so the handle after it is what it leaves. -/
theorem LiveHandle.respond_after (handle : LiveHandle Id) (request : Request) :
    (Id.run (handle.respond request)).handle = .live (handle.after request) := by
  obtain ⟨next, live, _⟩ := MayReturn.self (handle.respond request) _ (respond_keeps _ _)
  rw [after]
  exact live.trans (by rw [show (Id.run (handle.respond request)).handle = _ from live])

/-- A handle is still reached after a request. -/
theorem LiveHandle.Reachable.after {handle : LiveHandle Id} (reachable : handle.Reachable)
    (request : Request) : (handle.after request).Reachable :=
  .requested reachable (MayReturn.self (handle.respond request)) (handle.respond_after request)

/-- A handle is still reached after many. -/
theorem LiveHandle.Reachable.afterAll (requests : List Request) {handle : LiveHandle Id}
    (reachable : handle.Reachable) : (requests.foldl LiveHandle.after handle).Reachable := by
  induction requests generalizing handle with
  | nil => exact reachable
  | cons request rest inductionHypothesis => exact inductionHypothesis (reachable.after request)

/-- A request leaves the algorithm and the mode. -/
theorem LiveHandle.sameShape_after (handle : LiveHandle Id) (request : Request) :
    handle.SameShape (handle.after request) := by
  exact (LeftBy.of_returned (MayReturn.self (handle.respond request))
    (handle.respond_after request)).shape

/-- And so do many. -/
theorem LiveHandle.sameShape_afterAll (handle : LiveHandle Id) (requests : List Request) :
    handle.SameShape (requests.foldl LiveHandle.after handle) := by
  induction requests generalizing handle with
  | nil => exact SameShape.refl handle
  | cons request rest inductionHypothesis =>
    exact (handle.sameShape_after request).trans (inductionHypothesis (handle.after request))

namespace Specimen

open Standin

/-- The flipping cipher with bulk routines. -/
def algorithm : Algorithm Id where
  name := "specimen"
  keyBits := 128
  blockLength := 16
  contextSize := 16
  primitive := { (Flip.primitive : Primitive Id) with
    bulk := some (Flip.blockFunctions.toBulk Flip.blockLength) }

/-- A registry with nothing but the specimen in it. -/
def registry : Registry Id := (Registry.empty.register algorithm).registry

/-- Two contexts and four blocks, of sixteen bytes each. -/
def layout : Layout :=
  ⟨16, 16, 8, 16, 16, 96, by decide, by decide, by decide⟩

/-- The arena of a new handle. -/
def arena : Arena := ⟨layout, .standard, Bytes.zeros 96, by decide⟩

/-- A handle on the specimen after opening. -/
def opened (mode : Mode) (flags : Flags) : LiveHandle Id :=
  LiveHandle.unkeyed ⟨0, firstFreeId, algorithm⟩ arena mode flags

/-- A handle on the specimen with a key. -/
def keyed (mode : Mode) (flags : Flags) : LiveHandle Id :=
  ((opened mode flags).afterKeying (Keying.ignored ((opened mode flags).arena.read .live))).1

/-- Twenty bytes to encrypt, one to decrypt, and an empty call. -/
def calls : List Request :=
  [.encryptInPlace (Bytes.zeros 20), .decrypt [4] [0, 0], .encrypt [] []]

/-- Twenty bytes to encrypt in place, one with room for two, and an empty call. -/
def sends : List Request :=
  [.encryptInPlace (Bytes.zeros 20), .encrypt [4] [0, 0], .encrypt [] []]

/-- Two blocks to encrypt in place, and then one. -/
def stolen : List Request :=
  [.encryptInPlace (Bytes.zeros 32), .encryptInPlace (Bytes.zeros 16)]

/-- A key, a chaining value, calls before and after a realignment, and calls after a reset. -/
def conversation : List Request :=
  .setKey [] :: .setIv [1, 2, 3] :: (calls ++ .syncFeedback ::
    .decryptInPlace (Bytes.zeros 40) :: .reset :: calls)

/-- The specimen computes its two functions, in single blocks and in bulk. -/
theorem computes : algorithm.Computes Flip.blockFunctions :=
  Algorithm.computes_of_functions rfl (fun _ given => (Option.some.inj given).symm)
    fun _ _ _ => ⟨List.length_map _, List.length_map _⟩

/-- The specimen takes every key, and leaves its context alone. -/
theorem keys : algorithm.Keys fun context _ => Keying.ignored context :=
  ⟨fun _ _ _ => Yields.pure _, fun _ _ width => width⟩

/-- Flipping twice changes nothing. -/
theorem invertible (context : Bytes) (size : Nat) :
    Flip.blockFunctions.InvertibleUnder context size := by
  intro block _
  have twice : (fun byte : UInt8 => (byte ^^^ 0xFF) ^^^ 0xFF) = id := by
    funext byte
    rw [UInt8.xor_assoc, UInt8.xor_self, UInt8.xor_zero]
    rfl
  simp only [Flip.blockFunctions, Flip.complement, List.map_map, Function.comp_def, twice,
    List.map_id]

/-- Opening gives a handle on an algorithm that is alone in its registry, if the conditions hold
and there is memory. -/
theorem openOn_alone {algorithm : Algorithm Id} {mode : Mode} {flags : Flags} {arena : Arena}
    (granted : openingArena algorithm flags .common = .ok arena)
    (accepted : openingConditions algorithm firstFreeId false mode flags = .ok ()) :
    (Handle.openOn (Registry.empty.register algorithm).registry firstFreeId mode flags
      .common).value =
        .ok (.live (LiveHandle.unkeyed ⟨0, firstFreeId, algorithm⟩ arena mode flags)) := by
  have looked : (Registry.empty.register algorithm).registry.lookupId firstFreeId =
      ⟨(Registry.empty.register algorithm).registry.addPin 0,
        some ⟨0, firstFreeId, algorithm⟩, []⟩ := rfl
  have enabled : ((Registry.empty.register algorithm).registry.addPin 0).refusesHandles
      ⟨0, firstFreeId, algorithm⟩ = false := rfl
  rw [Handle.openOn, looked]
  simp only [enabled, accepted, granted]

/-- Opening gives a handle on an algorithm of the sizes of the specimen, if it is alone in its
registry, the conditions hold, and no locked pages are asked for. -/
theorem openOn_registered {algorithm : Algorithm Id} (contexts : algorithm.contextSize = 16)
    (blocks : algorithm.blockLength = 16) (alignment : algorithm.contextAlignment = 8)
    {mode : Mode} {flags : Flags} (standard : flags.secure = false)
    (accepted : openingConditions algorithm firstFreeId false mode flags = .ok ()) :
    (Handle.openOn (Registry.empty.register algorithm).registry firstFreeId mode flags
      .common).value =
        .ok (.live (LiveHandle.unkeyed ⟨0, firstFreeId, algorithm⟩ arena mode flags)) := by
  refine openOn_alone ?_ accepted
  rw [openingArena, standard, contexts, blocks, alignment]
  rfl

/-- Opening gives the handle, if the conditions hold and no locked pages are asked for. -/
theorem openOn_gives {mode : Mode} {flags : Flags} (standard : flags.secure = false)
    (accepted : openingConditions algorithm firstFreeId false mode flags = .ok ()) :
    (Handle.openOn registry firstFreeId mode flags .common).value =
      .ok (.live (opened mode flags)) :=
  openOn_registered rfl rfl rfl standard accepted

/-- A handle on the specimen with a key can be reached. -/
theorem reachable_keyed (mode : Mode) (flags : Flags) (standard : flags.secure = false)
    (accepted : openingConditions algorithm firstFreeId false mode flags = .ok ()) :
    (keyed mode flags).Reachable :=
  .requested (.opened (openOn_gives standard accepted))
    (MayReturn.self ((opened mode flags).respond (.setKey [])))
    (by rw [LiveHandle.respond_setKey]; rfl)

/-- Masks a block with the context, in both directions. -/
def maskFunctions : BlockFunctions where
  encrypt context block := Bytes.mask block context
  decrypt context block := Bytes.mask block context

/-- The context is the key, cut or padded. The empty key is refused. -/
def maskKeying (context : Bytes) : (key : Bytes) → Keying
  | [] => ⟨.error (.rejected "empty key"), context⟩
  | byte :: rest => ⟨.ok (), Bytes.fit 16 (byte :: rest)⟩

/-- The masking cipher. -/
def masking : Algorithm Id where
  name := "masking"
  keyBits := 128
  blockLength := 16
  contextSize := 16
  primitive :=
    { setKey := maskKeying
      block := some maskFunctions.toTransform }

/-- And so does the one that masks with its key. -/
theorem masking_computes : masking.Computes maskFunctions :=
  Algorithm.computes_of_functions rfl (fun _ given => nomatch given)
    fun _ _ _ => ⟨Bytes.length_mask _ _, Bytes.length_mask _ _⟩

/-- A handle on the masking cipher after opening. -/
def masked (mode : Mode) (flags : Flags) : LiveHandle Id :=
  LiveHandle.unkeyed ⟨0, firstFreeId, masking⟩ arena mode flags

/-- A new handle on the masking cipher can be reached. -/
theorem reachable_masked {mode : Mode} {flags : Flags} (standard : flags.secure = false)
    (accepted : openingConditions masking firstFreeId false mode flags = .ok ()) :
    (masked mode flags).Reachable :=
  .opened (openOn_registered rfl rfl rfl standard accepted)

/-- The masking cipher takes every key that has a byte. -/
theorem masking_takes {handle : LiveHandle Id} (algorithm : handle.pin.algorithm = masking)
    (byte : UInt8) (rest : Bytes) :
    MayReturn (handle.respond (.setKey (byte :: rest)))
      ((handle.after (.setKey (byte :: rest))).answered (.done (.ok ())) []) := by
  obtain ⟨⟨serial, id, registered⟩, mode, flags, keyed, carry, arena⟩ := handle
  obtain rfl : registered = masking := algorithm
  rw [LiveHandle.after, LiveHandle.respond_setKey]
  exact MayReturn.self _

/-- The counting stream, with blocks of no bytes. -/
def streaming : Algorithm Id where
  name := "streaming"
  keyBits := 8
  blockLength := 0
  contextSize := 9
  primitive := PositionStream.primitive

/-- Two contexts of nine bytes, and four blocks of none. -/
def streamArena : Arena :=
  ⟨⟨9, 0, 8, 16, 0, 32, by decide, by decide, by decide⟩, .standard, Bytes.zeros 32, by decide⟩

/-- A handle on the counting stream after opening. -/
def streamed (flags : Flags) : LiveHandle Id :=
  LiveHandle.unkeyed ⟨0, firstFreeId, streaming⟩ streamArena .stream flags

end Specimen

end CipherEngine
