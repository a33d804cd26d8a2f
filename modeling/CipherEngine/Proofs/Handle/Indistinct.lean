import CipherEngine.Proofs.Chaining.Indistinct
import CipherEngine.Proofs.Handle.Agreement

/-!
# Handles that no request tells apart

Two handles that agree on what they can still read, on algorithms that match, stay so
whatever is asked of both of them: they give the same replies and log the same records,
in every mode. This is proved for any correspondence of computations. Where it is the
coupling, the primitive is called with the same effects, and nothing is assumed of it.
-/
namespace CipherEngine

variable {m n : Type → Type} [Monad m] [Monad n]

/-- The stream transforms correspond. -/
structure StreamCipher.Matches (correspondence : Correspondence m n) (stream : StreamCipher m)
    (other : StreamCipher n) : Prop where
  encrypt : ∀ context buffer, correspondence.Relates (· = ·) (stream.encrypt context buffer)
    (other.encrypt context buffer)
  decrypt : ∀ context buffer, correspondence.Relates (· = ·) (stream.decrypt context buffer)
    (other.decrypt context buffer)

/-- The algorithms have the same sizes, and primitives that can do the same and correspond
in it. -/
structure Algorithm.Matches (correspondence : Correspondence m n) (algorithm : Algorithm m)
    (other : Algorithm n) : Prop where
  blockLength : other.blockLength = algorithm.blockLength
  contextSize : other.contextSize = algorithm.contextSize
  setKey : ∀ context key, correspondence.Relates (· = ·)
    (algorithm.primitive.setKey context key) (other.primitive.setKey context key)
  stream : Option.Rel (StreamCipher.Matches correspondence) algorithm.primitive.stream
    other.primitive.stream
  block : 0 < algorithm.blockLength.toNat → Option.Rel (fun block otherBlock =>
    ∀ context, context.length = algorithm.contextSize.toNat → ∀ counts rests : Prop,
      KeyedCipher.Matches correspondence ⟨algorithm.blockLength.toNat, counts, rests⟩
        ⟨block, algorithm.primitive.bulk, context⟩ ⟨otherBlock, other.primitive.bulk, context⟩)
    algorithm.primitive.block other.primitive.block

/-- An algorithm matches itself, whatever its primitive does. -/
theorem Algorithm.Matches.refl [LawfulMonad m] (algorithm : Algorithm m) :
    algorithm.Matches (coupling m) algorithm := by
  refine ⟨rfl, rfl, fun _ _ => Coupled.refl _, ?_, fun _ => ?_⟩
  · cases algorithm.primitive.stream with
    | none => exact .none
    | some stream => exact .some ⟨fun _ _ => Coupled.refl _, fun _ _ => Coupled.refl _⟩
  · cases algorithm.primitive.block with
    | none => exact .none
    | some block => exact .some fun _ _ _ _ => KeyedCipher.Matches.refl _ _

namespace LiveHandle

/-- How the mode of the handle reads its chains. -/
def reading (counts : Prop) (handle : LiveHandle m) : Chain.Reading :=
  ⟨handle.blockLength, counts, handle.mode.Rests⟩

/-- The handles agree on what they can still read, on algorithms that match. The counter
is among it if the mode counts. -/
structure Indistinct (correspondence : Correspondence m n) (counts : Prop)
    (handle : LiveHandle m) (other : LiveHandle n) : Prop extends Agrees counts handle other where
  algorithm : handle.pin.algorithm.Matches correspondence other.pin.algorithm
  fitted : handle.Fitted
  otherFitted : other.Fitted
  boundary : handle.mode.Rests → handle.carry = 0
  counted : handle.mode = .ctr → counts

variable {correspondence : Correspondence m n} {counts : Prop} {handle : LiveHandle m}
  {other : LiveHandle n}

/-- Indistinct handles, and the same beside them. -/
def SameResult {α : Type} (correspondence : Correspondence m n) (counts : Prop)
    (result : LiveHandle m × α) (otherResult : LiveHandle n × α) : Prop :=
  Indistinct correspondence counts result.1 otherResult.1 ∧ result.2 = otherResult.2

/-- The same answer, and indistinct handles after it. -/
def SameAnswer (correspondence : Correspondence m n) (counts : Prop) (outcome : Outcome m)
    (otherOutcome : Outcome n) : Prop :=
  outcome.reply = otherOutcome.reply ∧ outcome.events = otherOutcome.events ∧
    ∃ next otherNext, outcome.handle = .live next ∧ otherOutcome.handle = .live otherNext ∧
      Indistinct correspondence counts next otherNext

namespace Indistinct

/-- Blocks have one length in indistinct handles. -/
theorem width (indistinct : handle.Indistinct correspondence counts other) :
    other.blockLength = handle.blockLength := by
  rw [blockLength, indistinct.algorithm.blockLength]
  rfl

/-- Slots have one size in indistinct handles. -/
theorem sizes (indistinct : handle.Indistinct correspondence counts other) (slot : Slot) :
    other.arena.layout.size slot = handle.arena.layout.size slot :=
  indistinct.fitted.sizes indistinct.otherFitted indistinct.algorithm.contextSize
    indistinct.algorithm.blockLength slot

/-- The state of the mode is one block in each of its buffers. -/
theorem sized (indistinct : handle.Indistinct correspondence counts other) :
    handle.chain.Sized handle.blockLength := by
  constructor <;> exact (Arena.length_read _ _).trans (indistinct.fitted.size_eq (by decide))

/-- The states of the mode are indistinct. -/
theorem chain (indistinct : handle.Indistinct correspondence counts other) :
    handle.chain.Indistinct (handle.reading counts) other.chain := by
  constructor
  · exact indistinct.arena .iv trivial
  · exact indistinct.carry
  · exact indistinct.boundary
  · exact fun carried => indistinct.arena .previous carried
  · exact fun counted => indistinct.arena .counter counted
  · exact (Arena.length_read _ _).trans (indistinct.fitted.size_eq (by decide))
  · exact ((Arena.length_read _ _).trans (indistinct.otherFitted.size_eq (by decide))).trans
      indistinct.width
  · exact ((Arena.length_read _ _).trans (indistinct.sizes .counter)).trans
      (Arena.length_read _ _).symm
  · exact ((Arena.length_read _ _).trans (indistinct.sizes .scratch)).trans
      (Arena.length_read _ _).symm

/-- Indistinct handles stay so while their shapes stay, and what can be read agrees. -/
theorem changed (indistinct : handle.Indistinct correspondence counts other)
    {next : LiveHandle m} {otherNext : LiveHandle n} (shape : handle.SameShape next)
    (otherShape : other.SameShape otherNext) (flags : otherNext.flags = next.flags)
    (keyed : otherNext.keyed = next.keyed) (carry : otherNext.carry = next.carry)
    (boundary : handle.mode.Rests → next.carry = 0)
    (arena : Arena.Agree (Slot.Read counts next.carry) next.arena otherNext.arena) :
    next.Indistinct correspondence counts otherNext := by
  refine ⟨⟨?_, ?_, flags, keyed, carry, arena⟩, ?_, indistinct.fitted.of_sameShape shape,
    indistinct.otherFitted.of_sameShape otherShape, ?_, ?_⟩
  · rw [shape.pin, otherShape.pin, indistinct.id]
  · rw [shape.mode, otherShape.mode, indistinct.mode]
  · rw [shape.pin, otherShape.pin]
    exact indistinct.algorithm
  · rw [shape.mode]
    exact boundary
  · rw [shape.mode]
    exact indistinct.counted

/-- Handles into which indistinct chains are put back are indistinct. -/
theorem withChain (indistinct : handle.Indistinct correspondence counts other)
    {chain otherChain : Chain} (chains : chain.Indistinct (handle.reading counts) otherChain) :
    (handle.withChain chain).Indistinct correspondence counts (other.withChain otherChain) := by
  have iv := indistinct.arena.boundary.put .iv chain.iv
  have previous := iv.put_unseen .previous (fun visible => visible rfl) chain.previous
    otherChain.previous
  have counter : Arena.Agree (Slot.Read counts 0)
      (((handle.arena.put .iv 0 chain.iv).put .previous 0 chain.previous).put .counter 0
        chain.counter)
      (((other.arena.put .iv 0 chain.iv).put .previous 0 otherChain.previous).put .counter 0
        otherChain.counter) := by
    by_cases counted : counts
    · rw [chains.counter counted]
      exact previous.put .counter chain.counter
    · exact previous.put_unseen .counter counted _ _
  have boundary : Arena.Agree (Slot.Read counts 0) (handle.withChain chain).arena
      (other.withChain otherChain).arena := by
    rw [LiveHandle.withChain, LiveHandle.withChain, chains.iv]
    exact counter.put_unseen .scratch (fun visible => visible) _ _
  refine indistinct.changed (withChain_sameShape _ _) (withChain_sameShape _ _) indistinct.flags
    indistinct.keyed chains.carry chains.boundary fun slot visible => ?_
  cases slot with
  | live => exact boundary .live trivial
  | template => exact boundary .template trivial
  | iv => exact boundary .iv trivial
  | previous =>
    rw [indistinct.fitted.read_withChain_previous chains.width,
      indistinct.otherFitted.read_withChain_previous
        (chains.otherWidth.trans indistinct.width.symm)]
    exact chains.previous visible
  | counter => exact boundary .counter visible
  | scratch => exact False.elim visible

/-- The handles that are left in the same shapes, with the same carry and contexts that agree. -/
theorem withArena (indistinct : handle.Indistinct correspondence counts other)
    {arena otherArena : Arena} (layout : arena.layout = handle.arena.layout)
    (otherLayout : otherArena.layout = other.arena.layout)
    (agree : Arena.Agree (Slot.Read counts handle.carry) arena otherArena) :
    Indistinct correspondence counts { handle with arena } { other with arena := otherArena } :=
  indistinct.changed ⟨rfl, rfl, layout⟩ ⟨rfl, rfl, otherLayout⟩ indistinct.flags
    indistinct.keyed indistinct.carry indistinct.boundary agree

/-- A new chaining value makes a new block boundary. -/
theorem afterIv (indistinct : handle.Indistinct correspondence counts other) (iv : Bytes) :
    SameResult correspondence counts (handle.afterIv iv) (other.afterIv iv) := by
  have cleared := indistinct.arena.boundary.clear .iv (indistinct.sizes .iv)
  rw [SameResult, LiveHandle.afterIv, LiveHandle.afterIv, ivEvents, ivEvents, indistinct.width]
  exact ⟨indistinct.changed ⟨rfl, rfl, rfl⟩ ⟨rfl, rfl, rfl⟩ indistinct.flags indistinct.keyed rfl
    (fun _ => rfl) (cleared.put .iv _), rfl⟩

/-- A new counter is the same in both, or is refused by both. -/
theorem afterCounter (indistinct : handle.Indistinct correspondence counts other)
    (counter : Option Bytes) :
    SameResult correspondence counts (handle.afterCounter counter)
      (other.afterCounter counter) := by
  have cleared := indistinct.arena.clear .counter (indistinct.sizes .counter)
  cases counter with
  | none => exact ⟨indistinct.withArena rfl rfl cleared, rfl⟩
  | some block =>
    rw [LiveHandle.afterCounter, LiveHandle.afterCounter, indistinct.width]
    split
    · exact ⟨indistinct.withArena rfl rfl (indistinct.arena.put .counter block), rfl⟩
    · split
      · exact ⟨indistinct.withArena rfl rfl cleared, rfl⟩
      · exact ⟨indistinct, rfl⟩

/-- A reset makes a new block boundary, under the template. -/
theorem afterReset (indistinct : handle.Indistinct correspondence counts other) :
    SameResult correspondence counts handle.afterReset other.afterReset := by
  have restored := indistinct.arena.boundary.restored trivial
  have iv := restored.clear .iv (indistinct.sizes .iv)
  have previous := iv.clear .previous (indistinct.sizes .previous)
  have counter := previous.clear .counter (indistinct.sizes .counter)
  have scratch := counter.clear .scratch (indistinct.sizes .scratch)
  rw [LiveHandle.afterReset, LiveHandle.afterReset, indistinct.keyed]
  split
  · exact ⟨indistinct.changed ⟨rfl, rfl, rfl⟩ ⟨rfl, rfl, rfl⟩ indistinct.flags rfl rfl
      (fun _ => rfl) scratch, rfl⟩
  · exact ⟨indistinct, rfl⟩

/-- The options stay the same. -/
theorem setStealing (indistinct : handle.Indistinct correspondence counts other) (enable : Bool) :
    SameResult correspondence counts (handle.setStealing enable) (other.setStealing enable) := by
  rw [LiveHandle.setStealing, LiveHandle.setStealing, indistinct.flags]
  split
  · exact ⟨indistinct, rfl⟩
  · exact ⟨indistinct.changed ⟨rfl, rfl, rfl⟩ ⟨rfl, rfl, rfl⟩ rfl indistinct.keyed
      indistinct.carry indistinct.boundary indistinct.arena, rfl⟩

/-- Indistinct handles switch MAC output alike: they have the same options. -/
theorem setMac (indistinct : handle.Indistinct correspondence counts other) (enable : Bool) :
    SameResult correspondence counts (handle.setMac enable) (other.setMac enable) := by
  rw [LiveHandle.setMac, LiveHandle.setMac, indistinct.flags]
  split
  · exact ⟨indistinct, rfl⟩
  · exact ⟨indistinct.changed ⟨rfl, rfl, rfl⟩ ⟨rfl, rfl, rfl⟩ rfl indistinct.keyed
      indistinct.carry indistinct.boundary indistinct.arena, rfl⟩

/-- What is concluded from parallel attempts is the same answer. -/
theorem concluded (indistinct : handle.Indistinct correspondence counts other)
    (direction : Direction) (output : Bytes)
    (result : Except Stop (LiveHandle m × Bytes)) (otherResult : Except Stop (LiveHandle n × Bytes))
    (agree : Agree (SameResult correspondence counts) result otherResult) :
    SameAnswer correspondence counts (handle.concluded direction output result)
      (other.concluded direction output otherResult) := by
  obtain ⟨written, otherWritten, rfl, rfl, later, same⟩ | ⟨cause, rfl, rfl⟩ :=
    agree.values_or_cause
  · exact ⟨congrArg (fun output => Except.ok (Reply.wrote (.ok ()) output)) same, rfl,
      written.1, otherWritten.1, rfl, rfl, later⟩
  · cases cause with
    | refused | late | fault => exact ⟨rfl, rfl, handle, other, rfl, rfl, indistinct⟩

/-- Answers that are the same. -/
theorem answered (indistinct : handle.Indistinct correspondence counts other)
    {reply otherReply : Reply} {events otherEvents : List Event} (sameReply : reply = otherReply)
    (sameEvents : events = otherEvents) :
    correspondence.Relates (SameAnswer correspondence counts)
      (pure (handle.answered reply events)) (pure (other.answered otherReply otherEvents)) :=
  correspondence.pure
    ⟨congrArg Except.ok sameReply, sameEvents, handle, other, rfl, rfl, indistinct⟩

/-- A handle without a key is refused on both sides. -/
theorem requireKey (indistinct : handle.Indistinct correspondence counts other) :
    Parallel correspondence (· = ·) (handle.requireKey : Attempt m Unit) other.requireKey := by
  rw [LiveHandle.requireKey, LiveHandle.requireKey, indistinct.keyed]
  split
  · exact Parallel.pure rfl
  · exact Parallel.throw _ _

variable [LawfulMonad m] [LawfulMonad n]

/-- Lengths that do not fit are refused on both sides. -/
theorem requireFit (indistinct : handle.Indistinct correspondence counts other)
    (direction : Direction) (inputLength outputLength : Nat) :
    Parallel correspondence (· = ·)
      (handle.requireFit direction inputLength outputLength : Attempt m Unit)
      (other.requireFit direction inputLength outputLength) := by
  have required : other.requiredOutput direction inputLength =
      handle.requiredOutput direction inputLength := by
    rw [requiredOutput, requiredOutput, mac, mac, indistinct.mode, indistinct.flags,
      indistinct.width]
  have aligned : other.mustAlign inputLength = handle.mustAlign inputLength := by
    rw [mustAlign, mustAlign, stealing, stealing, indistinct.mode, indistinct.flags,
      indistinct.width]
  rw [LiveHandle.requireFit, LiveHandle.requireFit, required, aligned, indistinct.width]
  split
  · exact Parallel.throw _ _
  · split
    · apply Parallel.bind ((Checked.remainder_parallel correspondence _ _).adapt Stop.fault)
      rintro rest _ rfl
      split
      · exact Parallel.pure rfl
      · exact Parallel.throw _ _
    · exact Parallel.pure rfl

omit [LawfulMonad m] [LawfulMonad n] in
/-- In a mode that chains blocks, the handles have matching ciphers, or none. -/
theorem cipher (indistinct : handle.Indistinct correspondence counts other)
    (chains : handle.mode.chainsBlocks = true) :
    Parallel correspondence (KeyedCipher.Matches correspondence (handle.reading counts))
      (handle.cipher : Attempt m (KeyedCipher m)) other.cipher := by
  have blocks := indistinct.algorithm.block (indistinct.fitted.positive chains)
  have context := indistinct.fitted.length_context
  rw [LiveHandle.cipher, LiveHandle.cipher, primitive, primitive, indistinct.id, indistinct.mode,
    indistinct.arena .live trivial]
  generalize handle.pin.algorithm.primitive.block = block,
    other.pin.algorithm.primitive.block = otherBlock at blocks ⊢
  cases blocks with
  | none => exact Parallel.throw _ _
  | some same => exact Parallel.pure (same _ context counts handle.mode.Rests)

/-- A mode with a state runs in parallel on indistinct states. -/
theorem chained (indistinct : handle.Indistinct correspondence counts other)
    (chains : handle.mode.chainsBlocks = true)
    {computation : KeyedCipher m → Checked m (Chain × Bytes)}
    {otherComputation : KeyedCipher n → Checked n (Chain × Bytes)}
    (parallel : ∀ cipher otherCipher,
      cipher.Matches correspondence (handle.reading counts) otherCipher →
        Parallel correspondence (SameOutput (handle.reading counts)) (computation cipher)
          (otherComputation otherCipher)) :
    Parallel correspondence (SameResult correspondence counts)
      (do
        let cipher ← handle.cipher
        let (chain, output) ← checked (computation cipher)
        pure (handle.withChain chain, output))
      (do
        let cipher ← other.cipher
        let (chain, output) ← checked (otherComputation cipher)
        pure (other.withChain chain, output)) := by
  apply Parallel.bind (indistinct.cipher chains)
  intro cipher otherCipher same
  apply Parallel.bind ((parallel cipher otherCipher same).adapt Stop.fault)
  rintro ⟨chain, output⟩ ⟨otherChain, _⟩ ⟨chains, rfl⟩
  exact Parallel.pure ⟨indistinct.withChain chains, rfl⟩

/-- A stream is transformed in parallel, and its place is kept in both contexts. -/
theorem transformStream (indistinct : handle.Indistinct correspondence counts other)
    (direction : Direction) (buffer : Bytes) :
    Parallel correspondence (SameResult correspondence counts)
      (handle.transformStream direction buffer) (other.transformStream direction buffer) := by
  have streams := indistinct.algorithm.stream
  rw [LiveHandle.transformStream, LiveHandle.transformStream, primitive, primitive,
    indistinct.arena .live trivial]
  generalize handle.pin.algorithm.primitive.stream = stream,
    other.pin.algorithm.primitive.stream = otherStream at streams ⊢
  cases streams with
  | none =>
    rw [indistinct.id, indistinct.mode]
    exact Parallel.throw _ _
  | some same =>
    have written (context : Bytes) : Indistinct correspondence counts
        { handle with arena := handle.arena.put .live 0 context }
        { other with arena := other.arena.put .live 0 context } :=
      indistinct.withArena rfl rfl (indistinct.arena.put .live context)
    cases direction with
    | encrypt =>
      apply Parallel.bind (Parallel.lift (same.encrypt _ buffer))
      rintro ⟨context, output⟩ _ rfl
      exact Parallel.pure ⟨written context, rfl⟩
    | decrypt =>
      apply Parallel.bind (Parallel.lift (same.decrypt _ buffer))
      rintro ⟨context, output⟩ _ rfl
      exact Parallel.pure ⟨written context, rfl⟩

/-- A transform by one handle runs in parallel with that by the other, in every mode. -/
theorem transform (indistinct : handle.Indistinct correspondence counts other)
    (direction : Direction) (buffer : Bytes) :
    Parallel correspondence (SameResult correspondence counts) (handle.transform direction buffer)
      (other.transform direction buffer) := by
  have chains := indistinct.chain
  rw [LiveHandle.transform, LiveHandle.transform, indistinct.mode]
  cases mode : handle.mode with
  | none => exact Parallel.pure ⟨indistinct, rfl⟩
  | stream => exact indistinct.transformStream direction buffer
  | ecb =>
    apply Parallel.bind (indistinct.cipher (by rw [mode]; rfl))
    intro cipher otherCipher same
    apply Parallel.bind
      ((Codebook.transform_parallel same chains direction buffer).adapt Stop.fault)
    rintro output _ rfl
    exact Parallel.pure ⟨indistinct, rfl⟩
  | cbc =>
    have stealing : other.stealing = handle.stealing := by
      rw [LiveHandle.stealing, LiveHandle.stealing, indistinct.mode, indistinct.flags]
    have rests : handle.mode.Rests := by rw [mode]; decide
    rw [stealing]
    apply indistinct.chained (by rw [mode]; rfl)
    intro cipher otherCipher same
    cases direction with
    | encrypt =>
      exact BlockChaining.encrypt_parallel same rests chains indistinct.sized handle.stealing
        buffer
    | decrypt =>
      exact BlockChaining.decrypt_parallel same rests chains indistinct.sized handle.stealing
        buffer
  | cfb =>
    have feeds : ¬ handle.mode.Rests := by rw [mode]; decide
    exact indistinct.chained (by rw [mode]; rfl) fun _ _ same =>
      CipherFeedback.transform_parallel same feeds chains indistinct.sized direction buffer
  | ofb =>
    have feeds : ¬ handle.mode.Rests := by rw [mode]; decide
    exact indistinct.chained (by rw [mode]; rfl) fun _ _ same =>
      OutputFeedback.transform_parallel same feeds chains buffer
  | ctr =>
    exact indistinct.chained (by rw [mode]; rfl) fun _ _ same =>
      Counter.transform_parallel same (indistinct.counted mode) chains buffer

/-- A message is chained into a MAC in parallel. -/
theorem tagInto (indistinct : handle.Indistinct correspondence counts other)
    (chaining : handle.mode = .cbc) (input output : Bytes) :
    Parallel correspondence (SameResult correspondence counts) (handle.tagInto input output)
      (other.tagInto input output) := by
  have boundary := indistinct.boundary (by rw [chaining]; decide)
  rw [LiveHandle.tagInto, LiveHandle.tagInto]
  apply Parallel.bind (indistinct.cipher (by rw [chaining]; rfl))
  intro cipher otherCipher same
  apply Parallel.bind
    ((same.mac indistinct.chain indistinct.sized boundary input).adapt Stop.fault)
  rintro ⟨chain, written⟩ ⟨otherChain, _⟩ ⟨chained, rfl⟩
  have later := indistinct.withChain chained
  have width : (other.withChain otherChain).blockLength = (handle.withChain chain).blockLength :=
    later.width
  dsimp only
  rw [width, chained.iv]
  split
  · apply Parallel.bind ((Checked.split_parallel correspondence _ _).adapt Stop.fault)
    rintro ⟨front, rest⟩ _ ⟨rfl, _⟩
    apply Parallel.bind ((Checked.replace_parallel correspondence chain.iv rfl).adapt Stop.fault)
    rintro _ _ ⟨rfl, rfl, _⟩
    exact Parallel.pure ⟨later, rfl⟩
  · exact Parallel.pure ⟨later, rfl⟩

/-- A message call to one handle runs in parallel with that to the other. -/
theorem perform (indistinct : handle.Indistinct correspondence counts other) (call : MessageCall) :
    Parallel correspondence (SameResult correspondence counts) (handle.perform call)
      (other.perform call) := by
  have mac : other.mac = handle.mac := by
    rw [LiveHandle.mac, LiveHandle.mac, indistinct.mode, indistinct.flags]
  rw [LiveHandle.perform, LiveHandle.perform, mac]
  apply Parallel.bind indistinct.requireKey
  rintro _ _ rfl
  apply Parallel.bind (indistinct.requireFit _ _ _)
  rintro _ _ rfl
  split
  · next tagged =>
    simp only [LiveHandle.mac, Bool.and_eq_true, decide_eq_true_eq] at tagged
    exact indistinct.tagInto tagged.2.1 _ _
  · rw [transformInto, transformInto]
    apply Parallel.bind ((Checked.split_parallel correspondence _ _).adapt Stop.fault)
    rintro pieces _ ⟨rfl, _⟩
    apply Parallel.bind ((indistinct.transform call.direction call.input).adapt _)
    rintro ⟨after, output⟩ ⟨otherAfter, _⟩ ⟨later, rfl⟩
    exact Parallel.pure ⟨later, rfl⟩

omit [LawfulMonad m] [LawfulMonad n] in
/-- What a primitive makes of a key is taken over on both sides. -/
theorem afterKeying (indistinct : handle.Indistinct correspondence counts other)
    (keying : Keying) :
    SameResult correspondence counts (handle.afterKeying keying) (other.afterKeying keying) := by
  have written := indistinct.arena.put .live keying.context
  rw [LiveHandle.afterKeying, LiveHandle.afterKeying]
  cases keying.verdict with
  | ok =>
    exact ⟨indistinct.changed ⟨rfl, rfl, rfl⟩ ⟨rfl, rfl, rfl⟩ indistinct.flags rfl
      indistinct.carry indistinct.boundary (written.committed trivial), rfl⟩
  | error cause =>
    rw [indistinct.id]
    exact ⟨indistinct.changed ⟨rfl, rfl, rfl⟩ ⟨rfl, rfl, rfl⟩ indistinct.flags rfl
      indistinct.carry indistinct.boundary written, rfl⟩

omit [LawfulMonad m] [LawfulMonad n] in
/-- A realignment by one handle runs in parallel with that by the other. -/
theorem syncFeedback (indistinct : handle.Indistinct correspondence counts other) :
    Parallel correspondence (Indistinct correspondence counts)
      (handle.syncFeedback : Checked m (LiveHandle m)) other.syncFeedback := by
  rw [LiveHandle.syncFeedback, LiveHandle.syncFeedback, indistinct.flags, indistinct.carry]
  split
  · apply Parallel.bind (CipherFeedback.realign_parallel correspondence indistinct.chain)
    intro chain otherChain chains
    exact Parallel.pure (indistinct.withChain chains)
  · exact Parallel.pure indistinct

/-- Every request to one handle corresponds to the same request to the other, with the
same answer, and leaves them indistinct. -/
theorem respond (indistinct : handle.Indistinct correspondence counts other) (request : Request) :
    correspondence.Relates (SameAnswer correspondence counts) (handle.respond request)
      (other.respond request) := by
  cases asked : request.call? with
  | some call =>
    rw [respond_call handle asked, respond_call other asked]
    exact correspondence.map (indistinct.perform call)
      (indistinct.concluded call.direction call.buffer)
  | none =>
    cases request with
    | encrypt | decrypt | encryptInPlace | decryptInPlace => cases asked
    | setKey key =>
      rw [respond_setKey, respond_setKey]
      rw [primitive, primitive, indistinct.arena .live trivial]
      apply correspondence.bind (indistinct.algorithm.setKey _ key)
      rintro keying _ rfl
      obtain ⟨later, same⟩ := indistinct.afterKeying keying
      rw [same]
      exact later.answered rfl rfl
    | setIv iv =>
      obtain ⟨later, same⟩ := indistinct.afterIv iv
      rw [indistinct.fitted.respond_setIv, indistinct.otherFitted.respond_setIv]
      exact later.answered rfl same
    | setCounter counter =>
      obtain ⟨later, same⟩ := indistinct.afterCounter counter
      rw [indistinct.fitted.respond_setCounter, indistinct.otherFitted.respond_setCounter]
      exact later.answered (congrArg Reply.done same) rfl
    | syncFeedback =>
      have synced : correspondence.Relates (Agree (Indistinct correspondence counts))
          handle.syncFeedback.run other.syncFeedback.run := indistinct.syncFeedback
      rw [respond_syncFeedback, respond_syncFeedback]
      refine correspondence.bind synced fun result otherResult agree => ?_
      obtain ⟨next, otherNext, rfl, rfl, later⟩ | ⟨cause, rfl, rfl⟩ := agree.values_or_cause
      · exact later.answered rfl rfl
      · exact correspondence.pure ⟨rfl, rfl, handle, other, rfl, rfl, indistinct⟩
    | setStealing enable =>
      obtain ⟨later, same⟩ := indistinct.setStealing enable
      rw [respond_setStealing, respond_setStealing]
      exact later.answered (congrArg Reply.done same) rfl
    | setMac enable =>
      obtain ⟨later, same⟩ := indistinct.setMac enable
      rw [respond_setMac, respond_setMac]
      exact later.answered (congrArg Reply.done same) rfl
    | reset =>
      obtain ⟨later, same⟩ := indistinct.afterReset
      rw [respond_reset, respond_reset]
      exact later.answered (congrArg Reply.done same) rfl
    | algorithm => exact indistinct.answered (congrArg Reply.algorithm indistinct.id.symm) rfl
    | mode => exact indistinct.answered (congrArg Reply.mode indistinct.mode.symm) rfl
    | flags => exact indistinct.answered (congrArg Reply.flags indistinct.flags.symm) rfl
    | blockLength => exact indistinct.answered (congrArg Reply.size indistinct.width.symm) rfl
    | isKeyed => exact indistinct.answered (congrArg Reply.truth indistinct.keyed.symm) rfl
    | isSecure =>
      exact indistinct.answered
        (congrArg (fun flags => Reply.truth (Flags.secure flags)) indistinct.flags.symm) rfl

/-- Runs of the same requests correspond, answer by answer. -/
theorem respondAll (indistinct : handle.Indistinct correspondence counts other)
    (requests : List Request) :
    correspondence.Relates
      (fun run otherRun => List.Forall₂ (SameAnswer correspondence counts) run.2 otherRun.2)
      ((Handle.live handle).respondAll requests) ((Handle.live other).respondAll requests) := by
  induction requests generalizing handle other with
  | nil => exact correspondence.pure .nil
  | cons request rest inductionHypothesis =>
    rw [Handle.respondAll, Handle.respondAll]
    apply correspondence.bind (indistinct.respond request)
    intro outcome otherOutcome same
    obtain ⟨sameReply, _, next, otherNext, left, otherLeft, later⟩ := id same
    rw [← sameReply, left, otherLeft]
    cases outcome.reply with
    | error halt => exact correspondence.pure (.cons same .nil)
    | ok answer =>
      apply correspondence.bind (inductionHypothesis later)
      rintro ⟨last, outcomes⟩ ⟨otherLast, otherOutcomes⟩ others
      exact correspondence.pure (.cons same others)

end Indistinct

end LiveHandle

/-- What is seen of a run: the replies and the log records, but not the handles. -/
def observed {m : Type → Type} (run : Handle m × List (Outcome m)) :
    List (Except Halt Reply × List Event) :=
  run.2.map fun outcome => (outcome.reply, outcome.events)

/-- Whatever is asked of indistinct handles, in any order and with any effects of the
primitive, the runs look the same. -/
theorem LiveHandle.Indistinct.observed_respondAll {m : Type → Type} [Monad m] [LawfulMonad m]
    {counts : Prop} {handle other : LiveHandle m}
    (indistinct : handle.Indistinct (coupling m) counts other) (requests : List Request) :
    observed <$> (Handle.live handle).respondAll requests =
      observed <$> (Handle.live other).respondAll requests := by
  refine (coupling_relates.mp (indistinct.respondAll requests)).map_eq ?_
  rintro ⟨last, outcomes⟩ ⟨otherLast, otherOutcomes⟩ (same : List.Forall₂ _ outcomes otherOutcomes)
  simp only [observed]
  induction same with
  | nil => rfl
  | cons answer _ inductionHypothesis =>
    rw [List.map_cons, List.map_cons, answer.1, answer.2.1, inductionHypothesis]

end CipherEngine
