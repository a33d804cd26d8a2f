import CipherEngine.Proofs.Handle.Verdict

/-!
# What a handle is between requests

From opening on a handle is kept in a certain condition, whatever is asked of it. Its pin,
its mode and the sizes of its slots are those of opening; its options do not exclude each
other; less than a block is carried, and nothing outside the feedback modes. It has a key
exactly if the last one was accepted, and then the template is the context that this key
left. In every mode but that of streams the context is the template.

In this condition no step of a request is out of its domain, so every request is answered,
whatever the lengths of its arguments. Each request restores the condition, and so a run of
requests never stops short.

Of the primitive only this is assumed, that it keeps lengths.
-/
namespace CipherEngine

variable {m : Type → Type}

/-- The last key among the requests, with what came of it. -/
def lastKeying (past : List (Request × Outcome m)) : Option (Bytes × Outcome m) :=
  (past.filterMap fun entry => entry.1.key?.map fun key => (key, entry.2)).getLast?

/-- A key is the last one after any others. -/
theorem lastKeying_setKey (past : List (Request × Outcome m)) (key : Bytes) (outcome : Outcome m) :
    lastKeying (past ++ [(.setKey key, outcome)]) = some (key, outcome) := by
  rw [lastKeying, List.filterMap_append]
  exact List.getLast?_concat

/-- Any other request leaves the last key. -/
theorem lastKeying_other (past : List (Request × Outcome m)) {request : Request}
    (other : request.key? = none) (outcome : Outcome m) :
    lastKeying (past ++ [(request, outcome)]) = lastKeying past := by
  have nothing : ([(request, outcome)] : List (Request × Outcome m)).filterMap
      (fun entry => entry.1.key?.map fun key => (key, entry.2)) = [] := by
    rw [List.filterMap_cons, other]
    rfl
  rw [lastKeying, List.filterMap_append, nothing, List.append_nil, lastKeying]

/-- The request was done. -/
def Outcome.Accepted (outcome : Outcome m) : Prop := outcome.reply = .ok (.done (.ok ()))

/-- The request was answered: no step was out of its domain, and the program goes on. -/
def Outcome.Answered (outcome : Outcome m) : Prop := ∃ reply, outcome.reply = .ok reply

namespace LiveHandle

/-- The key was accepted, and the context is the one that it was committed with: what the
primitive left in the place of the context before. -/
def Committed (Leaves : (context key : Bytes) → Keying → Prop) (key : Bytes) (outcome : Outcome m)
    (context : Bytes) : Prop :=
  ∃ (next : LiveHandle m) (before : Bytes) (keying : Keying),
    outcome = next.answered (.done (.ok ())) [] ∧ Leaves before key keying ∧
      keying.verdict = .ok () ∧ next.arena.read .live = Bytes.overlay keying.context before ∧
        context = next.arena.read .live

/-- Every slot has the size that the algorithm declares, and twice a block is still a word. -/
structure Ranged (handle : LiveHandle m) : Prop where
  contexts : ∀ slot, slot = .live ∨ slot = .template →
    (handle.arena.read slot).length = handle.pin.algorithm.contextSize.toNat
  blocks : ∀ slot, slot ≠ .live ∧ slot ≠ .template →
    (handle.arena.read slot).length = handle.blockLength
  doubled : 2 * handle.blockLength < UInt64.size

/-- What a live handle is, after all that has been asked of it since it was opened. It has the
shape that it was opened with, as opening has judged it, and is sound; of its key is known what
came of the last one. -/
structure Represented (opened : LiveHandle m) (Leaves : (context key : Bytes) → Keying → Prop)
    (past : List (Request × Outcome m)) (handle : LiveHandle m) : Prop
    extends SameShape opened handle, Fitted handle, Sound handle where
  short : handle.Short
  keyed : handle.keyed = true ↔ ∃ key outcome, lastKeying past = some (key, outcome) ∧
    outcome.Accepted
  template : handle.keyed = true → ∀ key outcome, lastKeying past = some (key, outcome) →
    Committed Leaves key outcome (handle.arena.read .template)
  context : handle.keyed = true → handle.mode ≠ .stream →
    handle.arena.read .live = handle.arena.read .template

variable [Monad m] [LawfulMonad m] {opened handle : LiveHandle m}
  {Leaves : (context key : Bytes) → Keying → Prop} {past : List (Request × Outcome m)}

/-- A realignment goes through. -/
theorem syncFeedback_completes (fitted : handle.Fitted) (sound : handle.Sound)
    (short : handle.Short) :
    Completes (handle.syncFeedback : Checked m (LiveHandle m)) fun _ => True := by
  rw [syncFeedback]
  split
  · next allowed =>
    have inside : handle.carry ≠ 0 := by
      simp only [Bool.and_eq_true, decide_eq_true_eq] at allowed
      exact allowed.2
    have carries : ¬ handle.mode.Rests := fun rests => inside (sound.boundary rests)
    have fits := fitted.chain_fits (short (Mode.chainsBlocks_of_carries carries))
    apply Completes.bind (CipherFeedback.realign_completes fits)
    exact fun _ _ => Completes.pure trivial
  · exact Completes.pure trivial

/-- Every request is answered. -/
theorem respond_answers (fitted : handle.Fitted) (sound : handle.Sound) (short : handle.Short)
    (keeps : handle.pin.algorithm.KeepsLengths) (request : Request) :
    Ensures (handle.respond request) Outcome.Answered := by
  cases asked : request.call? with
  | some call =>
    cases judged : handle.verdict call with
    | ok =>
      have completed := perform_completes fitted keeps short (admits_of_verdict judged)
      rw [respond_call handle asked]
      refine Ensures.map completed fun result ends => ?_
      obtain ⟨⟨after, output⟩, rfl, _⟩ := ends
      exact ⟨_, rfl⟩
    | error cause =>
      rw [respond_refusal asked (fitted.positive_of_mustAlign _) judged]
      exact Ensures.pure ⟨_, rfl⟩
  | none =>
    cases request with
    | encrypt | decrypt | encryptInPlace | decryptInPlace => cases asked
    | setKey key =>
      rw [respond_setKey]
      exact Ensures.bind (Ensures.always _ fun _ => trivial) fun _ _ => Ensures.pure ⟨_, rfl⟩
    | setIv iv =>
      rw [fitted.respond_setIv]
      exact Ensures.pure ⟨_, rfl⟩
    | setCounter counter =>
      rw [fitted.respond_setCounter]
      exact Ensures.pure ⟨_, rfl⟩
    | reset =>
      rw [respond_reset]
      exact Ensures.pure ⟨_, rfl⟩
    | syncFeedback =>
      rw [respond_syncFeedback]
      refine Ensures.bind (syncFeedback_completes fitted sound short) fun result ends => ?_
      obtain ⟨after, rfl, _⟩ := ends
      exact Ensures.pure ⟨_, rfl⟩
    | setStealing | setMac | algorithm | mode | flags | blockLength | isKeyed | isSecure =>
      exact Ensures.pure ⟨_, rfl⟩

/-- A request of any kind is answered, and leaves less than a block carried, beside all else
that it leaves. -/
theorem respond_leaves (fitted : handle.Fitted) (sound : handle.Sound) (short : handle.Short)
    (keeps : handle.pin.algorithm.KeepsLengths) (request : Request) :
    Ensures (handle.respond request) fun outcome =>
      outcome.Answered ∧ ∃ next, outcome.handle = .live next ∧ next.Short ∧
        handle.LeftBy request next := by
  -- A handle that is left as it was has all of this, so what is ensured apart goes together.
  let unchanged := handle.answered (.truth true) []
  have left : handle.LeftBy request handle :=
    ⟨SameShape.refl handle, id, fun _ => SameKey.refl handle, fun _ _ => .inl rfl⟩
  have small : ∀ next, unchanged.handle = .live next → next.Short :=
    fun next live => Handle.live.inj live ▸ short
  have kept := (respond_short fitted keeps short request).and (respond_keeps handle request)
    unchanged ⟨small, handle, rfl, left⟩
  have whole := (respond_answers fitted sound short keeps request).and kept
    unchanged ⟨⟨_, rfl⟩, small, handle, rfl, left⟩
  refine whole.mono fun outcome holds => ⟨holds.1, ?_⟩
  obtain ⟨_, shortAfter, next, live, leaves⟩ := holds
  exact ⟨next, live, shortAfter next live, leaves⟩

/-- An opened handle is in its condition, and has no key. -/
theorem Represented.initially {registry : Registry m} {id : AlgorithmId} {mode : Mode}
    {flags : Flags} {machine : Machine} {opened : LiveHandle m}
    (given : (Handle.openOn registry id mode flags machine).value = .ok (.live opened)) :
    Represented opened Leaves [] opened := by
  have fitted := Fitted.opened given
  have sound := (Reachable.opened given).sound
  obtain ⟨_, _, _, rfl, _⟩ := Handle.openOn_gives given
  refine ⟨SameShape.refl _, fitted, sound, fun chains => fitted.positive chains, ?_, ?_, ?_⟩
  · refine ⟨fun keyed => absurd keyed Bool.false_ne_true, ?_⟩
    rintro ⟨_, _, last, _⟩
    cases last
  · exact fun keyed => absurd keyed Bool.false_ne_true
  · exact fun keyed => absurd keyed Bool.false_ne_true

/-- A key leaves the handle in its condition, accepted or not. -/
theorem Represented.keyGiven (represented : Represented opened Leaves past handle)
    (leaves : ∀ context key, context.length = opened.pin.algorithm.contextSize.toNat →
      Ensures (opened.primitive.setKey context key) (Leaves context key)) (key : Bytes) :
    Ensures (handle.respond (.setKey key)) fun outcome =>
      outcome.Answered ∧ ∃ next, outcome.handle = .live next ∧
        Represented opened Leaves (past ++ [(.setKey key, outcome)]) next := by
  have asked : Ensures (handle.primitive.setKey (handle.arena.read .live) key)
      (Leaves (handle.arena.read .live) key) := by
    have sized := represented.toFitted.length_context
    rw [primitive, represented.pin]
    rw [represented.pin] at sized
    exact leaves _ key sized
  rw [respond_setKey]
  refine Ensures.bind asked fun keying left => Ensures.pure ?_
  have written : (handle.arena.put .live 0 keying.context).read .live =
      Bytes.overlay keying.context (handle.arena.read .live) := Arena.read_put_self _ _ _ _
  simp only [afterKeying]
  cases verdict : keying.verdict with
  | ok =>
    have live := Arena.read_committed_of_ne (handle.arena.put .live 0 keying.context)
      (show Slot.template ≠ .live by decide)
    have template := Arena.read_committed_template (handle.arena.put .live 0 keying.context)
    refine ⟨⟨_, rfl⟩, _, rfl, represented.toSameShape.trans ⟨rfl, rfl, rfl⟩,
      represented.toFitted.of_sameShape ⟨rfl, rfl, rfl⟩,
      ⟨represented.consistent, represented.boundary⟩, represented.short, ?_, ?_, ?_⟩
    · exact ⟨fun _ => ⟨key, _, lastKeying_setKey past key _, rfl⟩, fun _ => rfl⟩
    · intro _ given outcome last
      rw [lastKeying_setKey] at last
      cases last
      exact ⟨_, _, keying, rfl, left, verdict, live.trans written, template.trans live.symm⟩
    · exact fun _ _ => live.trans template.symm
  | error cause =>
    refine ⟨⟨_, rfl⟩, _, rfl, represented.toSameShape.trans ⟨rfl, rfl, rfl⟩,
      represented.toFitted.of_sameShape ⟨rfl, rfl, rfl⟩,
      ⟨represented.consistent, represented.boundary⟩, represented.short, ?_, ?_, ?_⟩
    · refine ⟨fun keyed => absurd keyed Bool.false_ne_true, ?_⟩
      rintro ⟨given, outcome, last, accepted⟩
      rw [lastKeying_setKey] at last
      cases last
      cases accepted
    · exact fun keyed => absurd keyed Bool.false_ne_true
    · exact fun keyed => absurd keyed Bool.false_ne_true

omit [Monad m] [LawfulMonad m] in
/-- What a request other than a key leaves is in its condition. -/
theorem Represented.leftBy (represented : Represented opened Leaves past handle)
    {request : Request} (other : request.key? = none) {next : LiveHandle m}
    (left : handle.LeftBy request next) (short : next.Short) (outcome : Outcome m) :
    Represented opened Leaves (past ++ [(request, outcome)]) next := by
  have noKey : ∀ key, request ≠ .setKey key := by
    rintro key rfl
    cases other
  obtain ⟨keyed, template⟩ := left.key noKey
  refine ⟨represented.toSameShape.trans left.shape, represented.toFitted.of_sameShape left.shape,
    left.sound represented.toSound, short, ?_, ?_, ?_⟩
  · rw [lastKeying_other past other, keyed]
    exact represented.keyed
  · rw [lastKeying_other past other, keyed, template]
    exact represented.template
  · rw [keyed, template, left.shape.mode]
    intro held blocks
    obtain stays | restored := left.context noKey blocks
    · exact stays.trans (represented.context held blocks)
    · exact restored

/-- Every request is answered, and restores the condition of the handle. -/
theorem Represented.step (represented : Represented opened Leaves past handle)
    (keeps : opened.pin.algorithm.KeepsLengths)
    (leaves : ∀ context key, context.length = opened.pin.algorithm.contextSize.toNat →
      Ensures (opened.primitive.setKey context key) (Leaves context key)) (request : Request) :
    Ensures (handle.respond request) fun outcome =>
      outcome.Answered ∧ ∃ next, outcome.handle = .live next ∧
        Represented opened Leaves (past ++ [(request, outcome)]) next := by
  cases given : request.key? with
  | some key =>
    obtain rfl : request = .setKey key := by
      cases request <;> cases given
      rfl
    exact represented.keyGiven leaves key
  | none =>
    rw [← represented.pin] at keeps
    have left := respond_leaves represented.toFitted represented.toSound represented.short keeps
      request
    refine left.mono fun outcome ⟨answered, next, live, short, leftBy⟩ => ?_
    exact ⟨answered, next, live, represented.leftBy given leftBy short outcome⟩

end LiveHandle

/-- What every answer to one of the requests keeps, a run of the requests keeps, and it is
answered to the end. The property may speak of all requests up to now and what came of them. -/
theorem Handle.respondAll_keeps [Monad m] [LawfulMonad m]
    (Holds : List (Request × Outcome m) → LiveHandle m → Prop) (requests : List Request)
    (step : ∀ request ∈ requests, ∀ past handle, Holds past handle →
      Ensures (handle.respond request) fun outcome =>
        outcome.Answered ∧ ∃ next, outcome.handle = .live next ∧
          Holds (past ++ [(request, outcome)]) next)
    {past : List (Request × Outcome m)} {handle : LiveHandle m}
    (holds : Holds past handle) :
    Ensures ((live handle).respondAll requests) fun result =>
      result.2.length = requests.length ∧ (∀ outcome ∈ result.2, outcome.Answered) ∧
        ∃ last, result.1 = .live last ∧ Holds (past ++ requests.zip result.2) last := by
  induction requests generalizing past handle with
  | nil =>
    refine Ensures.pure ⟨rfl, List.forall_mem_nil _, handle, rfl, ?_⟩
    simpa using holds
  | cons request rest inductionHypothesis =>
    rw [respondAll]
    refine Ensures.bind (step request List.mem_cons_self past handle holds) fun outcome left => ?_
    obtain ⟨handled, reply, events⟩ := outcome
    obtain ⟨⟨given, rfl⟩, next, rfl, kept⟩ := left
    have onward := inductionHypothesis
      (fun other member => step other (List.mem_cons_of_mem request member)) kept
    refine Ensures.bind onward fun result later => ?_
    obtain ⟨lengths, answered, last, live, ends⟩ := later
    refine Ensures.pure ⟨congrArg Nat.succ lengths, ?_, last, live, ?_⟩
    · exact List.forall_mem_cons.mpr ⟨⟨given, rfl⟩, answered⟩
    · rw [List.append_assoc] at ends
      exact ends

namespace LiveHandle

variable [Monad m] [LawfulMonad m] {registry : Registry m} {id : AlgorithmId} {mode : Mode}
  {flags : Flags} {machine : Machine} {opened : LiveHandle m}

/-- Whatever is asked of a handle since it was opened, every request is answered, and the handle
is in its condition: it has the pin and the arena of opening, with slots of the declared sizes;
stealing and MAC output are not both on; a mode that chains blocks has them, and the primitive
can transform them; outside the feedback modes nothing is carried, and in them less than a
block. It has a key exactly if the last one was accepted; then the template is the context that
was committed with that key, as the primitive left it, and in every mode but that of streams
the context is the template. -/
theorem respondAll_represented
    (given : (Handle.openOn registry id mode flags machine).value = .ok (.live opened))
    (keeps : opened.pin.algorithm.KeepsLengths) {Leaves : (context key : Bytes) → Keying → Prop}
    (leaves : ∀ context key, context.length = opened.pin.algorithm.contextSize.toNat →
      Ensures (opened.primitive.setKey context key) (Leaves context key))
    (requests : List Request) :
    Ensures ((Handle.live opened).respondAll requests) fun result =>
      result.2.length = requests.length ∧ ∃ handle, result.1 = .live handle ∧
        Represented opened Leaves (requests.zip result.2) handle := by
  have run := Handle.respondAll_keeps (Represented opened Leaves) requests
    (fun request _ _ _ represented => represented.step keeps leaves request)
    (Represented.initially given)
  exact run.mono fun result ⟨lengths, _, handle, live, ends⟩ => ⟨lengths, handle, live, ends⟩

/-- The masking specimen in cipher feedback: a key, a message that ends inside a block, and a
key that is refused. -/
theorem respondAll_represented_specimen :
    let opened := Specimen.masked .cfb {}
    let requests := [.setKey [1], .encryptInPlace (Bytes.zeros 20), .setKey []]
    let leaves := fun context key keying => keying = Specimen.maskKeying context key
    Ensures ((Handle.live opened).respondAll requests) fun result =>
      result.2.length = 3 ∧ ∃ handle, result.1 = .live handle ∧
        Represented opened leaves (requests.zip result.2) handle := by
  intro opened requests leaves
  have given : (Handle.openOn (Registry.empty.register Specimen.masking).registry firstFreeId
      .cfb {} .common).value = .ok (.live opened) := Specimen.openOn_registered rfl rfl rfl rfl rfl
  have keys : ∀ context key, context.length = opened.pin.algorithm.contextSize.toNat →
      Ensures (opened.primitive.setKey context key) (leaves context key) :=
    fun _ _ _ => Ensures.pure rfl
  exact respondAll_represented given (Specimen.masking_computes.keepsLengths (by decide) rfl)
    keys requests

omit [Monad m] [LawfulMonad m] in
/-- A fitted handle has its slots. -/
theorem Fitted.ranged {handle : LiveHandle m} (fitted : handle.Fitted) : handle.Ranged := by
  have inside := handle.arena.layout.slotsFit
  have stride := handle.arena.layout.blockFits
  have counted := handle.arena.layout.total.toNat_lt
  refine ⟨fun slot contexts => ?_, fun slot blocks => ?_, ?_⟩
  · rw [Arena.length_read, ← fitted.contexts]
    obtain rfl | rfl := contexts <;> rfl
  · exact fitted.length_block blocks
  · rw [fitted.blocks] at stride
    rw [UInt64.size, blockLength]
    omega

/-- Whatever is asked of a handle since it was opened, with arguments of any lengths, every
request is answered: no step is out of its domain, neither a cut nor a copy nor a difference
of lengths nor a division. This holds of blocks without bytes too, where the mode may have
such. The slots that are read and written have the declared sizes. -/
theorem respondAll_answered
    (given : (Handle.openOn registry id mode flags machine).value = .ok (.live opened))
    (keeps : opened.pin.algorithm.KeepsLengths) (requests : List Request) :
    Ensures ((Handle.live opened).respondAll requests) fun result =>
      result.2.length = requests.length ∧ (∀ outcome ∈ result.2, outcome.Answered) ∧
        ∃ handle, result.1 = .live handle ∧ handle.Ranged := by
  have run := Handle.respondAll_keeps (Represented opened fun _ _ _ => True) requests
    (fun request _ _ _ represented =>
      represented.step keeps (fun _ _ _ => Ensures.always _ fun _ => trivial) request)
    (Represented.initially given)
  refine run.mono fun result ⟨lengths, answered, handle, live, ends⟩ => ?_
  exact ⟨lengths, answered, handle, live, ends.toFitted.ranged⟩

/-- The counting stream keeps the length of a buffer. -/
theorem length_maskFrom (key : UInt8) (position : Nat) (buffer : Bytes) :
    (Standin.PositionStream.maskFrom key position buffer).length = buffer.length := by
  induction buffer generalizing position with
  | nil => rfl
  | cons byte rest inductionHypothesis => exact congrArg Nat.succ (inductionHypothesis _)

/-- So does the specimen that streams. -/
theorem streaming_keepsLengths : Specimen.streaming.KeepsLengths := by
  constructor
  · intro block present
    cases present
  · rintro stream ⟨⟩ context buffer _
    exact Ensures.pure (length_maskFrom _ _ buffer)
  · rintro stream ⟨⟩ context buffer _
    exact Ensures.pure (length_maskFrom _ _ buffer)

/-- The streaming specimen, whose blocks have no bytes: a stream, settings of a block, a
realignment and a reset. -/
theorem respondAll_answered_specimen :
    let opened := Specimen.streamed {}
    let requests := [.setKey [1], .setIv [2], .setCounter (some [3]), .encrypt [4, 5] [0, 0, 0],
      .syncFeedback, .reset, .decryptInPlace [6]]
    opened.blockLength = 0 ∧
    Ensures ((Handle.live opened).respondAll requests) fun result =>
      result.2.length = 7 ∧ (∀ outcome ∈ result.2, outcome.Answered) ∧
        ∃ handle, result.1 = .live handle ∧ handle.Ranged := by
  intro opened requests
  have given : (Handle.openOn (Registry.empty.register Specimen.streaming).registry firstFreeId
      .stream {} .common).value = .ok (.live opened) := Specimen.openOn_alone rfl rfl
  exact ⟨rfl, respondAll_answered given streaming_keepsLengths requests⟩

end LiveHandle

end CipherEngine
