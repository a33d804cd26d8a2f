import CipherEngine.Proofs.Handle.Records
import CipherEngine.Proofs.Registry.Search

/-!
# The life of a record

Opening fills a record, closing empties it, and letting go of it closes it first. Each does to
the registry and to the log what it does for the handle, so a record can stand for its handle
over a whole life, whatever is asked in between.

What the handle alone does not show is its memory. Over a life the machine gets it back once
and no more, by the close or when the record is let go of, and never with a byte in it that is not
the byte of the wipe.
-/
namespace CipherEngine

variable {m : Type → Type}

namespace Arena

/-- A second wipe changes nothing. -/
theorem wipe_wipe (arena : Arena) : arena.wipe.wipe = arena.wipe := by
  simp [wipe, CipherEngine.wipe]

/-- Memory that the machine gets back holds the byte of the wipe and no other. -/
theorem eq_wipeByte_of_mem_freed {arena : Arena} {byte : UInt8}
    (kept : byte ∈ arena.freed.region) : byte = wipeByte :=
  (List.mem_replicate.mp kept).2

end Arena

/-- What is looked up by an id has it. -/
theorem Registry.id_of_lookupId {registry : Registry m} {id : AlgorithmId} {pin : Pin m} [Monad m]
    (found : (registry.lookupId id).value = some pin) : pin.id = id := by
  rw [lookupId, lookup_value] at found
  obtain ⟨entry, located, rfl⟩ := Option.map_eq_some_iff.mp found
  exact (mem_of_find? located).2

/-- Opening leaves the same registry, logs the same, and gives a handle and its record or refuses
both for one cause. -/
theorem openOn_records [Monad m] (registry : Registry m) (id : AlgorithmId) (mode : Mode)
    (flags : Flags) (machine : Machine) :
    let raw := RawHandle.openOn registry id mode flags machine
    let opened := Handle.openOn registry id mode flags machine
    raw.registry = opened.registry ∧ raw.events = opened.events ∧
      Agree Records raw.value opened.value := by
  simp only [RawHandle.openOn, Handle.openOn]
  cases found : (registry.lookupId id).value with
  | none => exact ⟨rfl, rfl, rfl⟩
  | some pin =>
    obtain rfl := Registry.id_of_lookupId found
    simp only
    cases openingConditions pin.algorithm pin.id
      ((registry.lookupId pin.id).registry.refusesHandles pin) mode flags with
    | error cause => exact ⟨rfl, rfl, rfl⟩
    | ok accepted =>
      cases accepted
      cases openingArena pin.algorithm flags machine with
      | error cause => exact ⟨rfl, rfl, rfl⟩
      | ok arena => exact ⟨rfl, rfl, Records.live (LiveHandle.unkeyed pin arena mode flags)⟩

/-- Closing does the same to the registry, and logs the same. A record that could be closed is that
of a closed handle, and the memory goes back wiped. -/
theorem Records.close {raw : RawHandle m} {handle : Handle m} (records : Records raw handle)
    (registry : Registry m) :
    let shut := RawHandle.close registry raw
    let closed := Handle.close registry handle
    shut.registry = closed.registry ∧ shut.events = closed.events ∧
      Agree (fun value kept => Records value.1 kept ∧ value.2 = handle.memory.map Arena.wipe)
        shut.value closed.value := by
  cases records with
  | live handle =>
    rw [RawHandle.close, if_pos handle.isLive_raw, Handle.close]
    refine ⟨rfl, rfl, Records.closed ⟨rfl, rfl, rfl, rfl, rfl⟩, ?_⟩
    exact congrArg some handle.arena.wipe_wipe
  | closed emptied =>
    rw [RawHandle.close, emptied.dead, if_neg Bool.false_ne_true]
    exact ⟨rfl, rfl, rfl⟩

/-- Letting go of a record does what letting go of its handle does, and the memory goes back
wiped if there is any. -/
theorem Records.discard {raw : RawHandle m} {handle : Handle m} (records : Records raw handle)
    (registry : Registry m) :
    let dropped := RawHandle.discard registry raw
    let discarded := Handle.discard registry handle
    dropped.registry = discarded.registry ∧ dropped.events = discarded.events ∧
      dropped.value = (handle.memory.map Arena.wipe).toList := by
  cases records with
  | live handle =>
    rw [RawHandle.discard, if_pos handle.isLive_raw, Handle.discard]
    refine ⟨rfl, List.append_nil _, ?_⟩
    exact congrArg List.singleton handle.arena.wipe_wipe
  | closed emptied =>
    rw [RawHandle.discard, emptied.dead, if_neg Bool.false_ne_true, RawHandle.dropFields,
      emptied.entry, emptied.arena]
    exact ⟨rfl, rfl, rfl⟩

/-- A record is described as its handle is. -/
theorem Records.describe {raw : RawHandle m} {handle : Handle m} (records : Records raw handle) :
    raw.describe = handle.describe := by
  cases records with
  | live handle => rw [RawHandle.describe, handle.isLive_raw]; rfl
  | closed emptied => rw [RawHandle.describe, emptied.dead, emptied.keyed]; rfl

/-- The tag, the pin and the memory tell the same: a record that stands for a handle has all
three of a live one, or none. -/
theorem Records.whole {raw : RawHandle m} {handle : Handle m} (records : Records raw handle) :
    (raw.isLive = true ↔ raw.entry.isSome = true) ∧
      (raw.isLive = true ↔ raw.arena.isSome = true) := by
  cases records with
  | live handle => exact ⟨iff_of_true handle.isLive_raw rfl, iff_of_true handle.isLive_raw rfl⟩
  | closed emptied => simp [emptied.dead, emptied.entry, emptied.arena]

/-! ## Whole lives -/

/-- What may be done with a handle that is held. -/
inductive Act where
  | request (request : Request)
  | close
deriving DecidableEq

/-- What an act leaves and says, and the memory that the machine gets back. `H` is what is acted
on: a record, or a handle. -/
structure Stage (m : Type → Type) (H : Type) where
  registry : Registry m
  handle : H
  reply : Except Halt (Option Reply)
  events : List Event
  freed : List Arena

/-- The stages are the same, of a record and of its handle. -/
structure SameStage (raw : Stage m (RawHandle m)) (stage : Stage m (Handle m)) : Prop where
  registry : raw.registry = stage.registry
  handle : Records raw.handle stage.handle
  reply : raw.reply = stage.reply
  events : raw.events = stage.events
  freed : raw.freed = stage.freed

section Acts

variable [Monad m]

/-- An act on a record. -/
def RawHandle.act (registry : Registry m) (raw : RawHandle m) : Act → m (Stage m (RawHandle m))
  | .request request => do
    let outcome ← raw.respond request
    pure ⟨registry, outcome.handle, some <$> outcome.reply, outcome.events, []⟩
  | .close =>
    let shut := RawHandle.close registry raw
    pure <| match shut.value with
      | .ok (after, freed) => ⟨shut.registry, after, .ok none, shut.events, freed.toList⟩
      | .error cause => ⟨shut.registry, raw, .error (.fatal cause), shut.events, []⟩

/-- An act on a handle. -/
def Handle.act (registry : Registry m) (handle : Handle m) : Act → m (Stage m (Handle m))
  | .request request => do
    let outcome ← handle.respond request
    pure ⟨registry, outcome.handle, some <$> outcome.reply, outcome.events, []⟩
  | .close =>
    let closed := Handle.close registry handle
    pure <| match closed.value with
      | .ok after =>
        ⟨closed.registry, after, .ok none, closed.events,
          (handle.memory.map Arena.wipe).toList⟩
      | .error cause => ⟨closed.registry, handle, .error (.fatal cause), closed.events, []⟩

/-- Acts in order, up to the first that ends the program. Returns what is left and every stage. -/
def actAll {H : Type} (act : Registry m → H → Act → m (Stage m H)) (registry : Registry m)
    (handle : H) : List Act → m (Registry m × H × List (Stage m H))
  | [] => pure (registry, handle, [])
  | first :: rest => do
    let stage ← act registry handle first
    match stage.reply with
    | .error _ => pure (stage.registry, stage.handle, [stage])
    | .ok _ => do
      let (registry, last, others) ← actAll act stage.registry stage.handle rest
      pure (registry, last, stage :: others)

variable [LawfulMonad m]

/-- Whatever is done with a handle, the same is done with its record. -/
theorem Records.act {raw : RawHandle m} {handle : Handle m} (records : Records raw handle)
    (registry : Registry m) (act : Act) :
    Coupled SameStage (RawHandle.act registry raw act) (Handle.act registry handle act) := by
  cases act with
  | request request =>
    apply Coupled.bind (records.respond request)
    intro outcome other shown
    exact Coupled.pure
      ⟨rfl, shown.handle, congrArg (some <$> ·) shown.reply, shown.events, rfl⟩
  | close =>
    obtain ⟨sameRegistry, sameEvents, agree⟩ := records.close registry
    rw [RawHandle.act, Handle.act]
    refine Coupled.pure ?_
    obtain ⟨value, kept, shut, closed, left, freed⟩ | ⟨cause, shut, closed⟩ :=
      agree.values_or_cause
    · rw [shut, closed]
      exact ⟨sameRegistry, left, rfl, sameEvents, congrArg Option.toList freed⟩
    · rw [shut, closed]
      exact ⟨sameRegistry, records, rfl, sameEvents, rfl⟩

/-- A whole life of a record is that of its handle, stage by stage. -/
theorem Records.actAll {raw : RawHandle m} {handle : Handle m} (records : Records raw handle)
    (registry : Registry m) (acts : List Act) :
    Coupled
      (fun left other => left.1 = other.1 ∧ Records left.2.1 other.2.1 ∧
        List.Forall₂ SameStage left.2.2 other.2.2)
      (CipherEngine.actAll RawHandle.act registry raw acts)
      (CipherEngine.actAll Handle.act registry handle acts) := by
  -- On the acts: each leaves a record and its handle, and one registry, to the next.
  induction acts generalizing registry raw handle with
  | nil => exact Coupled.pure ⟨rfl, records, .nil⟩
  | cons first rest inductionHypothesis =>
    apply Coupled.bind (records.act registry first)
    intro stage other same
    rw [same.reply]
    cases other.reply with
    | error halt => exact Coupled.pure ⟨same.registry, same.handle, .cons same .nil⟩
    | ok reply =>
      simp only
      rw [same.registry]
      apply Coupled.bind (inductionHypothesis same.handle other.registry)
      rintro ⟨left, last, stages⟩ ⟨_, otherLast, others⟩ ⟨rfl, recorded, alike⟩
      exact Coupled.pure ⟨rfl, recorded, .cons same alike⟩

/-- What has been freed, and what is left to be: together there is as much as before, and what has
been freed was wiped. -/
structure Frees (before after : Handle m) (freed : List Arena) : Prop where
  account : freed.length + after.memory.toList.length = before.memory.toList.length
  wiped : ∀ arena ∈ freed, ∃ used : Arena, arena = used.freed

/-- The memory is freed by the close of a live handle and by nothing else. -/
theorem Records.act_frees {raw : RawHandle m} {handle : Handle m} (records : Records raw handle)
    (registry : Registry m) (act : Act) :
    Ensures (RawHandle.act registry raw act) fun stage =>
      ∃ kept, Records stage.handle kept ∧ Frees handle kept stage.freed := by
  cases act with
  | request request =>
    cases records with
    | live handle =>
      refine Ensures.bind (handle.respond_shown request).ensures fun outcome shown => ?_
      obtain ⟨_, ⟨next, recorded, _⟩, _⟩ := shown
      exact Ensures.pure ⟨.live next, recorded ▸ Records.live next, rfl, nofun⟩
    | closed emptied =>
      rw [RawHandle.act, RawHandle.respond_dead emptied.dead, pure_bind]
      exact Ensures.pure ⟨_, Records.closed emptied, rfl, nofun⟩
  | close =>
    cases records with
    | live handle =>
      rw [RawHandle.act, RawHandle.close, if_pos handle.isLive_raw]
      refine Ensures.pure ⟨_, Records.closed ⟨rfl, rfl, rfl, rfl, rfl⟩, rfl, fun arena freed => ?_⟩
      exact ⟨handle.arena.wipe, List.mem_singleton.mp freed⟩
    | closed emptied =>
      rw [RawHandle.act, RawHandle.close, emptied.dead, if_neg Bool.false_ne_true]
      exact Ensures.pure ⟨_, Records.closed emptied, rfl, nofun⟩

/-- Over a whole life the account stays balanced. -/
theorem Records.actAll_frees {raw : RawHandle m} {handle : Handle m} (records : Records raw handle)
    (registry : Registry m) (acts : List Act) :
    Ensures (CipherEngine.actAll RawHandle.act registry raw acts) fun left =>
      ∃ kept, Records left.2.1 kept ∧ Frees handle kept (left.2.2.flatMap Stage.freed) := by
  induction acts generalizing registry raw handle with
  | nil => exact Ensures.pure ⟨handle, records, Nat.zero_add _, nofun⟩
  | cons first rest inductionHypothesis =>
    refine Ensures.bind (records.act_frees registry first) fun stage frees => ?_
    obtain ⟨next, recorded, account, wiped⟩ := frees
    cases stage.reply with
    | error halt =>
      refine Ensures.pure ⟨next, recorded, ?_, ?_⟩
      · simpa using account
      · simpa using wiped
    | ok reply =>
      refine Ensures.bind (inductionHypothesis recorded stage.registry) fun left later => ?_
      obtain ⟨kept, lastRecorded, laterAccount, laterWiped⟩ := later
      refine Ensures.pure ⟨kept, lastRecorded, ?_, ?_⟩
      · rw [List.flatMap_cons, List.length_append, Nat.add_assoc, laterAccount, account]
      · intro arena freed
        rw [List.flatMap_cons, List.mem_append] at freed
        exact freed.elim (wiped arena) (laterWiped arena)

/-- Whatever is done with a handle before its record is let go of, and wherever that is cut short,
the machine gets the memory back once and no more, and gets no byte of it but the byte of the
wipe. -/
theorem memory_freed_once (handle : LiveHandle m) (registry : Registry m) (acts : List Act) :
    Ensures (CipherEngine.actAll RawHandle.act registry handle.raw acts) fun left =>
      ∃ arena, left.2.2.flatMap Stage.freed ++ (RawHandle.discard left.1 left.2.1).value = [arena] ∧
        ∀ byte ∈ arena.region, byte = wipeByte := by
  refine Ensures.mono ((Records.live handle).actAll_frees registry acts) fun left frees => ?_
  obtain ⟨kept, recorded, account, wiped⟩ := frees
  obtain ⟨_, _, dropped⟩ := recorded.discard left.1
  have once : (left.2.2.flatMap Stage.freed ++
      (RawHandle.discard left.1 left.2.1).value).length = 1 := by
    rw [dropped, List.length_append, Option.toList_map, List.length_map]
    exact account
  obtain ⟨arena, only⟩ := List.length_eq_one_iff.mp once
  refine ⟨arena, only, fun byte present => ?_⟩
  have freed : ∃ used : Arena, arena = used.freed := by
    have member : arena ∈ left.2.2.flatMap Stage.freed ++
        (RawHandle.discard left.1 left.2.1).value := only ▸ List.mem_singleton_self arena
    rcases List.mem_append.mp member with earlier | last
    · exact wiped arena earlier
    · rw [dropped, Option.mem_toList] at last
      obtain ⟨used, _, rfl⟩ := Option.map_eq_some_iff.mp last
      exact ⟨used, rfl⟩
  obtain ⟨used, rfl⟩ := freed
  exact Arena.eq_wipeByte_of_mem_freed present

end Acts

end CipherEngine
