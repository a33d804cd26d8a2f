import CipherEngine.Proofs.Handle.Paired

/-!
# Settings

Before the first message a handle is given keys, chaining values and counters, in
any order. What it holds afterwards depends on each of the three alone: the
context is what the keys leave one after the other, the chaining value is the
last one given, and so is the counter unless it was refused. Handles that were
opened alike and given the same are therefore paired, with one state of the mode.
-/
namespace CipherEngine

namespace Request

/-- The key that a request gives. -/
def key? : Request → Option Bytes
  | .setKey key => some key
  | _ => none

/-- The chaining value that a request gives. -/
def iv? : Request → Option Bytes
  | .setIv iv => some iv
  | _ => none

/-- The counter that a request gives, which may be none. -/
def counter? : Request → Option (Option Bytes)
  | .setCounter counter => some counter
  | _ => none

/-- The request gives a key, a chaining value or a counter. -/
inductive Sets : Request → Prop where
  | key (key : Bytes) : Sets (.setKey key)
  | iv (iv : Bytes) : Sets (.setIv iv)
  | counter (counter : Option Bytes) : Sets (.setCounter counter)

end Request

/-- The request makes no call, and so is no exchange. -/
def Request.Silent {m : Type → Type} (request : Request) (_ : Outcome m) : Prop :=
  request.call? = none

/-- Silent requests add nothing to the exchanges. -/
theorem exchanges_append_silent {m : Type → Type} {first rest : List Request}
    {answers outcomes : List (Outcome m)} (silent : List.Forall₂ Request.Silent first answers) :
    exchanges (first ++ rest) (answers ++ outcomes) = exchanges rest outcomes := by
  induction silent with
  | nil => rfl
  | @cons request answer _ _ quiet _ inductionHypothesis =>
    rw [List.cons_append, List.cons_append, exchanges_cons,
      Request.exchange?_of_call?_none quiet, inductionHypothesis]
    rfl

/-- What holds of every silent request may be said of a run after silent requests. -/
theorem forall₂_append_silent {m : Type → Type} {Fine : Request → Outcome m → Prop}
    (vacuous : ∀ request outcome, Request.Silent request outcome → Fine request outcome)
    {first rest : List Request} {answers outcomes : List (Outcome m)}
    (silent : List.Forall₂ Request.Silent first answers)
    (fine : List.Forall₂ Fine rest outcomes) :
    List.Forall₂ Fine (first ++ rest) (answers ++ outcomes) :=
  List.rel_append (silent.imp vacuous) fine

/-- The requests of both lists are settings, and give the same keys in one order, the same
chaining values and the same counters. -/
structure SameSettings (settings others : List Request) : Prop where
  sets : ∀ request ∈ settings, request.Sets
  otherSets : ∀ request ∈ others, request.Sets
  keys : others.filterMap Request.key? = settings.filterMap Request.key?
  ivs : others.filterMap Request.iv? = settings.filterMap Request.iv?
  counters : others.filterMap Request.counter? = settings.filterMap Request.counter?

/-- A context, and whether its last key was accepted, after more keys. -/
def Keying.after (keying : (context key : Bytes) → Keying) (held : Bytes × Bool)
    (keys : List Bytes) : Bytes × Bool :=
  keys.foldl (fun held key => ((keying held.1 key).context, (keying held.1 key).verdict.isOk)) held

/-- A counter of the given size after one that is set. -/
def counterAfter (size : Nat) (held : Bytes) : Option Bytes → Bytes
  | none => Bytes.zeros size
  | some block =>
    if block.length = size then block else if block.isEmpty then Bytes.zeros size else held

namespace LiveHandle

variable {m : Type → Type}

/-- The handle holds what it held before the settings, and they have changed. -/
structure Holds (keying : (context key : Bytes) → Keying) (handle : LiveHandle m)
    (settings : List Request) (ready : LiveHandle m) : Prop where
  shape : handle.SameShape ready
  flags : ready.flags = handle.flags
  context : (ready.arena.read .live, ready.keyed) =
    Keying.after keying (handle.arena.read .live, handle.keyed) (settings.filterMap Request.key?)
  iv : ready.arena.read .iv = (settings.filterMap Request.iv?).foldl
    (fun _ iv => Bytes.fit handle.blockLength iv) (handle.arena.read .iv)
  counter : ready.arena.read .counter = (settings.filterMap Request.counter?).foldl
    (counterAfter handle.blockLength) (handle.arena.read .counter)
  scratch : ready.arena.read .scratch = handle.arena.read .scratch
  carry : handle.carry = 0 → ready.carry = 0

/-- Without settings nothing changes. -/
theorem Holds.refl (keying : (context key : Bytes) → Keying) (handle : LiveHandle m) :
    handle.Holds keying [] handle :=
  ⟨SameShape.refl handle, rfl, rfl, rfl, rfl, rfl, id⟩

/-- Settings after a first one. -/
theorem Holds.cons {keying : (context key : Bytes) → Keying} {handle middle ready : LiveHandle m}
    {request : Request} {settings : List Request} (first : handle.Holds keying [request] middle)
    (later : middle.Holds keying settings ready) :
    handle.Holds keying (request :: settings) ready := by
  have width : middle.blockLength = handle.blockLength := by
    rw [blockLength, first.shape.pin]
    rfl
  rw [← List.singleton_append]
  constructor
  · exact ⟨later.shape.pin.trans first.shape.pin, later.shape.mode.trans first.shape.mode,
      later.shape.layout.trans first.shape.layout⟩
  · exact later.flags.trans first.flags
  · rw [later.context, first.context, List.filterMap_append, Keying.after, Keying.after,
      Keying.after, List.foldl_append]
  · rw [later.iv, first.iv, List.filterMap_append, List.foldl_append, width]
  · rw [later.counter, first.counter, List.filterMap_append, List.foldl_append, width]
  · exact later.scratch.trans first.scratch
  · exact fun start => later.carry (first.carry start)

/-- A new chaining value takes the place of the last. -/
theorem Fitted.holds_afterIv {handle : LiveHandle m} (fitted : handle.Fitted)
    (keying : (context key : Bytes) → Keying) (iv : Bytes) :
    handle.Holds keying [.setIv iv] (handle.afterIv iv).1 where
  shape := afterIv_sameShape handle iv
  flags := rfl
  context := by
    rw [read_afterIv handle iv (by decide)]
    rfl
  iv := congrArg Chain.iv (fitted.chain_afterIv iv)
  counter := read_afterIv handle iv (by decide)
  scratch := read_afterIv handle iv (by decide)
  carry := fun _ => rfl

/-- A new counter takes the place of the last, or is refused. -/
theorem Fitted.holds_afterCounter {handle : LiveHandle m} (fitted : handle.Fitted)
    (keying : (context key : Bytes) → Keying) (counter : Option Bytes) :
    handle.Holds keying [.setCounter counter] (handle.afterCounter counter).1 := by
  have width : handle.arena.layout.size .counter = handle.blockLength :=
    fitted.size_eq (by decide)
  have written {block : Bytes} (fills : block.length = handle.blockLength)
      (same : counterAfter handle.blockLength (handle.arena.read .counter) counter = block) :
      handle.Holds keying [.setCounter counter]
        { handle with arena := handle.arena.put .counter 0 block } := by
    have others {slot : Slot} (other : Slot.counter ≠ slot) :
        (handle.arena.put .counter 0 block).read slot = handle.arena.read slot :=
      Arena.read_put_of_ne _ _ _ other
    constructor
    · exact ⟨rfl, rfl, rfl⟩
    · rfl
    · exact congrArg (·, handle.keyed) (others (by decide))
    · exact others (by decide)
    · exact (Arena.read_put_whole handle.arena (fills.trans width.symm)).trans same.symm
    · exact others (by decide)
    · exact id
  have cleared (same : counterAfter handle.blockLength (handle.arena.read .counter) counter =
      Bytes.zeros handle.blockLength) :
      handle.Holds keying [.setCounter counter]
        { handle with arena := handle.arena.clear .counter } := by
    rw [Arena.clear, width]
    exact written (Bytes.length_zeros _) same
  cases counter with
  | none => exact cleared rfl
  | some block =>
    rw [afterCounter]
    by_cases fills : block.length = handle.blockLength
    · rw [if_pos fills]
      exact written fills (if_pos fills)
    · rw [if_neg fills]
      by_cases empty : block.isEmpty
      · rw [if_pos empty]
        exact cleared (by rw [counterAfter, if_neg fills, if_pos empty])
      · rw [if_neg empty]
        have kept : counterAfter handle.blockLength (handle.arena.read .counter) (some block) =
            handle.arena.read .counter := by
          rw [counterAfter, if_neg fills, if_neg empty]
        exact ⟨SameShape.refl handle, rfl, rfl, rfl, kept.symm, rfl, id⟩

variable [Monad m]

/-- A new handle holds nothing but zero bytes. -/
theorem opened_zeros {registry : Registry m} {id : AlgorithmId} {mode : Mode} {flags : Flags}
    {machine : Machine} {handle : LiveHandle m}
    (opened : (Handle.openOn registry id mode flags machine).value = .ok (.live handle))
    (slot : Slot) :
    handle.arena.read slot = Bytes.zeros (handle.arena.layout.size slot) := by
  obtain ⟨pin, arena, disabled, rfl, _, granted⟩ := Handle.openOn_gives opened
  unfold openingArena at granted
  split at granted
  · cases granted
  · obtain ⟨_, zero⟩ := Arena.ofLayout_ok granted
    exact Arena.read_of_zeros zero slot

/-- The handle has just been opened in the mode, with or without stealing, and without MAC. -/
def Opened (mode : Mode) (stealing : Bool) (handle : LiveHandle m) : Prop :=
  ∃ registry id flags machine,
    (Handle.openOn registry id mode flags machine).value = .ok (.live handle) ∧
    flags.stealing = stealing ∧ flags.mac = false

/-- A new handle is as opening has judged it. -/
theorem Opened.fitted {mode : Mode} {stealing : Bool} {handle : LiveHandle m}
    (opened : handle.Opened mode stealing) : handle.Fitted := by
  obtain ⟨_, _, _, _, given, _⟩ := opened
  exact Fitted.opened given

/-- A new handle has the mode and the options that were asked for, and no key. -/
theorem Opened.begins {mode : Mode} {stealing : Bool} {handle : LiveHandle m}
    (opened : handle.Opened mode stealing) :
    handle.mode = mode ∧ handle.flags.stealing = stealing ∧ handle.flags.mac = false ∧
      handle.carry = 0 ∧ handle.keyed = false := by
  obtain ⟨_, _, _, _, given, chosen, mac⟩ := opened
  obtain ⟨_, _, _, rfl, _, _⟩ := Handle.openOn_gives given
  exact ⟨rfl, chosen, mac, rfl, rfl⟩

/-- What new handles on one algorithm hold is the same. -/
theorem Opened.read_eq {mode : Mode} {stealing : Bool} {handle other : LiveHandle m}
    (opened : handle.Opened mode stealing) (otherOpened : other.Opened mode stealing)
    (algorithm : other.pin.algorithm = handle.pin.algorithm) (slot : Slot) :
    other.arena.read slot = handle.arena.read slot := by
  have contexts : other.arena.layout.contextSize = handle.arena.layout.contextSize := by
    rw [otherOpened.fitted.contexts, algorithm, opened.fitted.contexts]
  have blocks : other.arena.layout.blockLength = handle.arena.layout.blockLength := by
    rw [otherOpened.fitted.blocks, algorithm, opened.fitted.blocks]
  obtain ⟨_, _, _, _, given, _⟩ := opened
  obtain ⟨_, _, _, _, otherGiven, _⟩ := otherOpened
  rw [opened_zeros given, opened_zeros otherGiven]
  cases slot <;> simp only [Layout.size, contexts, blocks]

/-- Handles on one algorithm that were opened alike and given the same settings are paired,
at the beginning of one message. -/
theorem Paired.of_settings {functions : BlockFunctions}
    {keying : (context key : Bytes) → Keying} {mode : Mode} {stealing : Bool}
    {sender receiver ready otherReady : LiveHandle m}
    (opened : sender.Opened mode stealing) (otherOpened : receiver.Opened mode stealing)
    (algorithm : receiver.pin.algorithm = sender.pin.algorithm)
    (computes : sender.pin.algorithm.Computes functions) {settings others : List Request}
    (same : SameSettings settings others) (holds : sender.Holds keying settings ready)
    (otherHolds : receiver.Holds keying others otherReady)
    (invertible : functions.InvertibleUnder (ready.arena.read .live) sender.blockLength) :
    ready.Paired functions otherReady ∧ ready.chain.carry = 0 ∧
      otherReady.chain = { ready.chain with previous := otherReady.chain.previous } := by
  have read := opened.read_eq otherOpened algorithm
  obtain ⟨senderMode, chosen, mac, senderCarry, senderKeyed⟩ := opened.begins
  obtain ⟨receiverMode, otherChosen, _, receiverCarry, receiverKeyed⟩ := otherOpened.begins
  have width : receiver.blockLength = sender.blockLength := by
    rw [blockLength, algorithm]
    rfl
  have sameMode : otherReady.mode = ready.mode := by
    rw [otherHolds.shape.mode, holds.shape.mode, receiverMode, senderMode]
  have context : (otherReady.arena.read .live, otherReady.keyed) =
      (ready.arena.read .live, ready.keyed) := by
    rw [otherHolds.context, holds.context, same.keys, read, receiverKeyed, senderKeyed]
  have iv : otherReady.arena.read .iv = ready.arena.read .iv := by
    rw [otherHolds.iv, holds.iv, same.ivs, read, width]
  have counter : otherReady.arena.read .counter = ready.arena.read .counter := by
    rw [otherHolds.counter, holds.counter, same.counters, read, width]
  have scratch : otherReady.arena.read .scratch = ready.arena.read .scratch := by
    rw [otherHolds.scratch, holds.scratch, read]
  have boundary := holds.carry senderCarry
  constructor
  · constructor
    · exact opened.fitted.of_sameShape holds.shape
    · exact otherOpened.fitted.of_sameShape otherHolds.shape
    · rw [holds.shape.pin]
      exact computes
    · rw [holds.shape.width]
      exact invertible
    · rw [otherHolds.shape.pin, holds.shape.pin, algorithm]
    · exact sameMode
    · simp only [LiveHandle.stealing, sameMode, otherHolds.flags, holds.flags, otherChosen, chosen]
    · simp [LiveHandle.mac, holds.flags, mac]
    · exact congrArg Prod.snd context
    · exact congrArg Prod.fst context
  · constructor
    · exact boundary
    · simp only [chain, iv, counter, scratch, otherHolds.carry receiverCarry, boundary]

variable [LawfulMonad m]

omit [LawfulMonad m] in
/-- A key changes the context and whether there is a key, and nothing that a mode keeps. -/
theorem Fitted.holds_afterKeying {handle : LiveHandle m} (fitted : handle.Fitted)
    {keying : (context key : Bytes) → Keying} (keys : handle.pin.algorithm.Keys keying)
    (key : Bytes) :
    handle.Holds keying [.setKey key]
      (handle.afterKeying (keying (handle.arena.read .live) key)).1 := by
  have width := fitted.length_context
  let keyed := keying (handle.arena.read .live) key
  have fills : keyed.context.length = handle.arena.layout.size .live := by
    rw [keys.length _ key width, ← width, Arena.length_read]
  let written := handle.arena.put .live 0 keyed.context
  have held : written.read .live = keyed.context := Arena.read_put_whole handle.arena fills
  have others {slot : Slot} (other : Slot.live ≠ slot) :
      written.read slot = handle.arena.read slot := Arena.read_put_of_ne _ _ _ other
  have kept {slot : Slot} (other : Slot.template ≠ slot) :
      written.committed.read slot = written.read slot := Arena.read_committed_of_ne _ other
  have context {ready : LiveHandle m} (live : ready.arena.read .live = keyed.context)
      (accepted : ready.keyed = keyed.verdict.isOk) :
      (ready.arena.read .live, ready.keyed) = Keying.after keying
        (handle.arena.read .live, handle.keyed) ([Request.setKey key].filterMap Request.key?) := by
    rw [live, accepted]
    rfl
  change handle.Holds keying [.setKey key] (handle.afterKeying keyed).1
  rw [afterKeying]
  cases verdict : keyed.verdict with
  | ok =>
    constructor
    · exact ⟨rfl, rfl, rfl⟩
    · rfl
    · exact context ((kept (by decide)).trans held) (by rw [verdict]; rfl)
    · exact (kept (by decide)).trans (others (by decide))
    · exact (kept (by decide)).trans (others (by decide))
    · exact (kept (by decide)).trans (others (by decide))
    · exact id
  | error cause =>
    constructor
    · exact ⟨rfl, rfl, rfl⟩
    · rfl
    · exact context held (by rw [verdict]; rfl)
    · exact others (by decide)
    · exact others (by decide)
    · exact others (by decide)
    · exact id

/-- Settings are answered, and what they change is held before the requests after them. -/
theorem Fitted.respondAll_settings {handle : LiveHandle m} (fitted : handle.Fitted)
    {keying : (context key : Bytes) → Keying} (keys : handle.pin.algorithm.Keys keying)
    {settings : List Request} (sets : ∀ request ∈ settings, request.Sets) :
    ∃ ready answers, handle.Holds keying settings ready ∧
      List.Forall₂ Request.Silent settings answers ∧
      ∀ requests last outcomes,
        Yields ((Handle.live ready).respondAll requests) (last, outcomes) →
        Yields ((Handle.live handle).respondAll (settings ++ requests))
          (last, answers ++ outcomes) := by
  induction settings generalizing handle with
  | nil => exact ⟨handle, [], Holds.refl keying handle, .nil, fun _ _ _ yielded => yielded⟩
  | cons request rest inductionHypothesis =>
    have restSets : ∀ other ∈ rest, other.Sets :=
      fun other member => sets other (List.mem_cons_of_mem request member)
    obtain ⟨middle, reply, events, answered, holds⟩ : ∃ middle reply events,
        Yields (handle.respond request) (LiveHandle.answered middle reply events) ∧
          handle.Holds keying [request] middle := by
      cases sets request List.mem_cons_self with
      | key key =>
        have keyed := keys.yields _ key fitted.length_context
        exact ⟨_, _, _, respond_setKey_yields keyed, fitted.holds_afterKeying keys key⟩
      | iv iv =>
        exact ⟨_, _, _, Yields.of_eq (fitted.respond_setIv iv), fitted.holds_afterIv keying iv⟩
      | counter counter =>
        exact ⟨_, _, _, Yields.of_eq (fitted.respond_setCounter counter),
          fitted.holds_afterCounter keying counter⟩
    have silent : request.call? = none := by
      cases sets request List.mem_cons_self <;> rfl
    have middleKeys : middle.pin.algorithm.Keys keying := by
      rw [holds.shape.pin]
      exact keys
    obtain ⟨ready, answers, later, allSilent, continued⟩ :=
      inductionHypothesis (fitted.of_sameShape holds.shape) middleKeys restSets
    refine ⟨ready, middle.answered reply events :: answers, holds.cons later,
      .cons silent allSilent, ?_⟩
    intro requests last outcomes yielded
    exact Handle.respondAll_cons answered (continued requests last outcomes yielded)

end LiveHandle

end CipherEngine
