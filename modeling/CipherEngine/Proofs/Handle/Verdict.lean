import CipherEngine.Proofs.Chaining.Lengths
import CipherEngine.Proofs.Handle.Residue
import CipherEngine.Proofs.Specimen

/-!
# Which calls are accepted

A call is judged by three conditions, in an order: the key, the room in the output, and
the alignment of the input. What they come to is written down here as a verdict of its
own, and a handle answers with it, in every mode. A call that is refused changes
nothing, and no call of the primitive is made for it; a call that is not refused goes
through, so neither a mode that the primitive lacks nor a step out of its domain ever
shows itself later.

Of the primitive nothing is assumed but that it keeps lengths. What a handle must then
keep is that less than a block is ever carried.
-/
namespace CipherEngine.LiveHandle

variable {m : Type → Type}

/-- The bytes of output that a call needs: a block where encryption yields a MAC, else as many
as the input has. -/
def needed (handle : LiveHandle m) (call : MessageCall) : Nat :=
  if call.direction = .encrypt ∧ handle.mode = .cbc ∧ handle.flags.mac = true then
    handle.blockLength
  else call.input.length

/-- A message of so many bytes must be whole blocks: in the codebook, and in block chaining
unless stealing is on and the message is longer than a block. -/
def NeedsBlocks (handle : LiveHandle m) (length : Nat) : Prop :=
  handle.mode = .ecb ∨
    handle.mode = .cbc ∧ ¬ (handle.flags.stealing = true ∧ handle.blockLength < length)

/-- Whether a message must be whole blocks can be computed. -/
instance (handle : LiveHandle m) : DecidablePred handle.NeedsBlocks := fun length =>
  inferInstanceAs (Decidable (handle.mode = .ecb ∨
    handle.mode = .cbc ∧ ¬ (handle.flags.stealing = true ∧ handle.blockLength < length)))

/-- What becomes of a call: it is refused for a missing key, else for an output that is too
short, else for an input that must be whole blocks and is not. -/
def verdict (handle : LiveHandle m) (call : MessageCall) : Except Refusal Unit :=
  if handle.keyed = false then .error (.configuration .noKey)
  else if call.buffer.length < handle.needed call then
    .error (.argument (.shortOutput (handle.needed call) call.buffer.length))
  else if handle.NeedsBlocks call.input.length ∧ ¬ handle.blockLength ∣ call.input.length then
    .error (.argument (.misaligned call.input.length handle.blockLength))
  else .ok ()

/-- In a mode that chains blocks, less than a block is carried. -/
def Short (handle : LiveHandle m) : Prop :=
  handle.mode.chainsBlocks = true → handle.carry < handle.blockLength

/-- The room that is asked for is the room that a call needs. -/
theorem requiredOutput_eq (handle : LiveHandle m) (call : MessageCall) :
    handle.requiredOutput call.direction call.input.length = handle.needed call := by
  simp only [requiredOutput, needed, mac, Bool.and_eq_true, decide_eq_true_eq]

/-- An input is judged where it must be whole blocks. -/
theorem mustAlign_iff (handle : LiveHandle m) (inputLength : Nat) :
    handle.mustAlign inputLength = true ↔ handle.NeedsBlocks inputLength := by
  rw [mustAlign, stealing, NeedsBlocks]
  cases mode : handle.mode with
  | cbc => cases handle.flags.stealing <;> simp
  | none | ecb | cfb | ofb | ctr | stream => simp

/-- In block chaining without stealing, every input that is admitted is whole blocks. -/
theorem Admits.aligned_of_plain {handle : LiveHandle m} {call : MessageCall}
    (admitted : handle.Admits call) (chaining : handle.mode = .cbc)
    (plain : handle.flags.stealing = false) : handle.blockLength ∣ call.input.length := by
  have judged : handle.mustAlign call.input.length = true := by
    rw [mustAlign, chaining, stealing, plain, Bool.and_false]
    rfl
  exact Nat.dvd_of_mod_eq_zero (admitted.aligned judged)

/-- A call that the verdict does not refuse is admitted. -/
theorem admits_of_verdict {handle : LiveHandle m} {call : MessageCall}
    (accepted : handle.verdict call = .ok ()) : handle.Admits call := by
  rw [verdict] at accepted
  by_cases unkeyed : handle.keyed = false
  · rw [if_pos unkeyed] at accepted
    cases accepted
  rw [if_neg unkeyed] at accepted
  by_cases crowded : call.buffer.length < handle.needed call
  · rw [if_pos crowded] at accepted
    cases accepted
  rw [if_neg crowded] at accepted
  by_cases misfit : handle.NeedsBlocks call.input.length ∧ ¬ handle.blockLength ∣ call.input.length
  · rw [if_pos misfit] at accepted
    cases accepted
  constructor
  · exact Bool.eq_true_of_not_eq_false unkeyed
  · rw [requiredOutput_eq]
    exact Nat.not_lt.mp crowded
  · intro judged
    have aligned : handle.blockLength ∣ call.input.length := by
      by_contra misaligned
      exact misfit ⟨(mustAlign_iff handle _).mp judged, misaligned⟩
    exact Nat.mod_eq_zero_of_dvd aligned

/-- No call is refused for its mode. -/
theorem verdict_supports (handle : LiveHandle m) (call : MessageCall) (id : AlgorithmId)
    (mode : Mode) : handle.verdict call ≠ .error (.configuration (.unsupportedMode id mode)) := by
  unfold verdict
  split
  · exact nofun
  · split
    · exact nofun
    · split <;> exact nofun

variable [Monad m] [LawfulMonad m]

/-- Nothing follows a refusal. -/
theorem refuse_bind {α β : Type} (cause : Refusal) (next : α → Attempt m β) :
    (refuse cause : Attempt m α) >>= next = refuse cause :=
  throw_bind _ _

/-- A call that the verdict refuses is refused for that cause, before anything else is done. -/
theorem perform_refused {handle : LiveHandle m} {call : MessageCall} {cause : Refusal}
    (positive : handle.mustAlign call.input.length = true → 0 < handle.blockLength)
    (refused : handle.verdict call = .error cause) : handle.perform call = refuse cause := by
  rw [verdict] at refused
  rw [perform, requireKey, requireFit, requiredOutput_eq]
  by_cases unkeyed : handle.keyed = false
  · rw [if_pos unkeyed] at refused
    obtain rfl := Except.error.inj refused
    rw [unkeyed, if_neg Bool.false_ne_true, refuse_bind]
  rw [if_neg unkeyed] at refused
  rw [Bool.eq_true_of_not_eq_false unkeyed, if_pos rfl, pure_bind]
  by_cases crowded : call.buffer.length < handle.needed call
  · rw [if_pos crowded] at refused
    obtain rfl := Except.error.inj refused
    rw [if_pos crowded, refuse_bind]
  rw [if_neg crowded] at refused
  by_cases misfit : handle.NeedsBlocks call.input.length ∧ ¬ handle.blockLength ∣ call.input.length
  · rw [if_pos misfit] at refused
    obtain rfl := Except.error.inj refused
    obtain ⟨whole, misaligned⟩ := misfit
    have judged := (mustAlign_iff handle _).mpr whole
    have rest : call.input.length % handle.blockLength ≠ 0 :=
      fun none => misaligned (Nat.dvd_of_mod_eq_zero none)
    rw [if_neg crowded, if_pos judged, Checked.remainder, if_neg (Nat.ne_of_gt (positive judged)),
      checked_pure_bind, if_neg rest, refuse_bind]
  · rw [if_neg misfit] at refused
    cases refused

/-- A call that the verdict refuses is answered with the cause, and leaves the handle as it
was. -/
theorem respond_refusal {handle : LiveHandle m} {request : Request} {call : MessageCall}
    (asked : request.call? = some call)
    (positive : handle.mustAlign call.input.length = true → 0 < handle.blockLength)
    {cause : Refusal}
    (refused : handle.verdict call = .error cause) :
    handle.respond request = pure (handle.answered (.wrote (.error cause) call.spoiled) []) := by
  rw [respond_call handle asked, perform_refused positive refused]
  exact map_pure (handle.concluded call.direction call.buffer) (Except.error (Stop.refused cause))

omit [LawfulMonad m] in
/-- In a mode that chains blocks, the cipher of the handle keeps lengths. -/
theorem Fitted.cipher_keeps {handle : LiveHandle m} (fitted : handle.Fitted)
    (keeps : handle.pin.algorithm.KeepsLengths) (chains : handle.mode.chainsBlocks = true) :
    ∃ cipher, handle.cipher = pure cipher ∧ cipher.KeepsLengths handle.blockLength := by
  obtain ⟨block, present, available⟩ := fitted.cipher_available chains
  exact ⟨_, available, keeps.block block present _ fitted.length_context⟩

/-- A transform that a mode does on its state goes through. -/
theorem chained_completes {handle : LiveHandle m} {cipher : KeyedCipher m}
    (available : handle.cipher = pure cipher) {length : Nat}
    {computation : KeyedCipher m → Checked m (Chain × Bytes)}
    (completed : Completes (computation cipher) (Chain.Returns handle.blockLength length)) :
    Completes (do
        let cipher ← handle.cipher
        let (chain, output) ← checked (computation cipher)
        pure (handle.withChain chain, output))
      fun result => result.1.Short ∧ result.2.length = length := by
  rw [available]
  apply Completes.after (Gives.pure cipher)
  apply Completes.bind (completed.adapt Stop.fault)
  rintro ⟨chain, output⟩ ⟨fits, width⟩
  exact Completes.pure ⟨fun _ => fits.carry, width⟩

/-- A stream goes through, and nothing is carried in its mode. -/
theorem transformStream_completes {handle : LiveHandle m} (fitted : handle.Fitted)
    (keeps : handle.pin.algorithm.KeepsLengths) (mode : handle.mode = .stream)
    (direction : Direction) (buffer : Bytes) :
    Completes (handle.transformStream direction buffer) fun result =>
      result.1.Short ∧ result.2.length = buffer.length := by
  have supported := fitted.supported
  rw [Primitive.supports, mode] at supported
  obtain ⟨stream, present⟩ := Option.isSome_iff_exists.mp supported
  have others (arena : Arena) : Short { handle with arena } :=
    fun chains => absurd mode (Mode.ne_stream_of_chainsBlocks chains)
  have written (result : Bytes × Bytes) (width : result.2.length = buffer.length) :
      Completes (pure ({ handle with arena := handle.arena.put .live 0 result.1 }, result.2) :
          Attempt m (LiveHandle m × Bytes))
        fun result => result.1.Short ∧ result.2.length = buffer.length :=
    Completes.pure ⟨others _, width⟩
  rw [transformStream, present]
  cases direction with
  | encrypt =>
    exact Completes.bind (Completes.lift
      (keeps.encryptStream stream present _ buffer fitted.length_context)) written
  | decrypt =>
    exact Completes.bind (Completes.lift
      (keeps.decryptStream stream present _ buffer fitted.length_context)) written

/-- Every transform goes through, in every mode, and puts out as many bytes as it was given. -/
theorem transform_completes {handle : LiveHandle m} (fitted : handle.Fitted)
    (keeps : handle.pin.algorithm.KeepsLengths) (short : handle.Short) (direction : Direction)
    (buffer : Bytes) :
    Completes (handle.transform direction buffer) fun result =>
      result.1.Short ∧ result.2.length = buffer.length := by
  have chained (chains : handle.mode.chainsBlocks = true) :
      ∃ cipher, handle.cipher = pure cipher ∧ cipher.KeepsLengths handle.blockLength ∧
        handle.chain.Fits handle.blockLength := by
    obtain ⟨cipher, available, keepsBlocks⟩ := fitted.cipher_keeps keeps chains
    exact ⟨cipher, available, keepsBlocks, fitted.chain_fits (short chains)⟩
  unfold transform
  cases mode : handle.mode with
  | none => exact Completes.pure ⟨short, rfl⟩
  | stream => exact transformStream_completes fitted keeps mode direction buffer
  | ecb =>
    obtain ⟨cipher, available, keepsBlocks, fits⟩ := chained (by rw [mode]; rfl)
    rw [available]
    apply Completes.after (Gives.pure cipher)
    apply Completes.bind
      ((Codebook.transform_completes keepsBlocks direction fits buffer).adapt Stop.fault)
    intro output width
    exact Completes.pure ⟨short, width⟩
  | cbc =>
    obtain ⟨cipher, available, keepsBlocks, fits⟩ := chained (by rw [mode]; rfl)
    apply chained_completes available
    cases direction with
    | encrypt => exact BlockChaining.encrypt_completes keepsBlocks _ fits buffer
    | decrypt => exact BlockChaining.decrypt_completes keepsBlocks _ fits buffer
  | cfb =>
    obtain ⟨cipher, available, keepsBlocks, fits⟩ := chained (by rw [mode]; rfl)
    exact chained_completes available
      (CipherFeedback.transform_completes keepsBlocks direction fits buffer)
  | ofb =>
    obtain ⟨cipher, available, keepsBlocks, fits⟩ := chained (by rw [mode]; rfl)
    exact chained_completes available
      (OutputFeedback.transform_completes keepsBlocks fits buffer)
  | ctr =>
    obtain ⟨cipher, available, keepsBlocks, fits⟩ := chained (by rw [mode]; rfl)
    exact chained_completes available (Counter.transform_completes keepsBlocks fits buffer)

/-- A MAC is written over the front of an output that has room for it. -/
theorem tagInto_completes {handle : LiveHandle m} (fitted : handle.Fitted)
    (keeps : handle.pin.algorithm.KeepsLengths) (short : handle.Short)
    (chaining : handle.mode = .cbc) (input : Bytes) {output : Bytes}
    (room : handle.blockLength ≤ output.length) :
    Completes (handle.tagInto input output) fun result =>
      result.1.Short ∧ result.2.length = output.length := by
  have chains := chains_of_cbc chaining
  obtain ⟨cipher, available, keepsBlocks⟩ := fitted.cipher_keeps keeps chains
  have fits := fitted.chain_fits (short chains)
  rw [tagInto, available]
  apply Completes.after (Gives.pure cipher)
  apply Completes.bind ((BlockChaining.mac_completes keepsBlocks fits input).adapt Stop.fault)
  rintro ⟨chain, written⟩ ⟨chainFits, _⟩
  have shortAfter : (handle.withChain chain).Short := fun _ => chainFits.carry
  have frontWidth : (output.take handle.blockLength).length = handle.blockLength :=
    List.length_take_of_le room
  cases written with
  | false => exact Completes.pure ⟨shortAfter, rfl⟩
  | true =>
    apply Completes.after ((Checked.split_gives room).adapt Stop.fault)
    apply Completes.after
      ((Checked.replace_gives (chainFits.iv.trans frontWidth.symm)).adapt Stop.fault)
    refine Completes.pure ⟨shortAfter, ?_⟩
    rw [List.length_append, chainFits.iv, List.length_drop]
    omega

/-- A call that is admitted goes through, and its buffer keeps its length. -/
theorem perform_completes {handle : LiveHandle m} (fitted : handle.Fitted)
    (keeps : handle.pin.algorithm.KeepsLengths) (short : handle.Short) {call : MessageCall}
    (admitted : handle.Admits call) :
    Completes (handle.perform call) fun result =>
      result.1.Short ∧ result.2.length = call.buffer.length := by
  have room := admitted.room
  rw [perform_of_admits admitted (fitted.positive_of_mustAlign _)]
  by_cases yieldsMac : (call.direction = .encrypt && handle.mac) = true
  · rw [if_pos yieldsMac]
    rw [requiredOutput, if_pos yieldsMac] at room
    have chaining : handle.mode = .cbc := by
      simp only [mac, Bool.and_eq_true, decide_eq_true_eq] at yieldsMac
      exact yieldsMac.2.1
    exact tagInto_completes fitted keeps short chaining call.input room
  · rw [if_neg yieldsMac]
    rw [requiredOutput, if_neg yieldsMac] at room
    rw [transformInto]
    apply Completes.after ((Checked.split_gives room).adapt Stop.fault)
    apply Completes.bind
      ((transform_completes fitted keeps short call.direction call.input).adapt _)
    rintro ⟨next, output⟩ ⟨shortAfter, width⟩
    refine Completes.pure ⟨shortAfter, ?_⟩
    simp only at width ⊢
    rw [List.length_append, width, List.length_drop]
    omega

omit [Monad m] [LawfulMonad m] in
/-- A handle of the same shape that carries no more carries less than a block. -/
theorem Short.of_le {handle next : LiveHandle m} (short : handle.Short)
    (shape : handle.SameShape next) (less : next.carry ≤ handle.carry) : next.Short := by
  intro chains
  rw [shape.width]
  rw [shape.mode] at chains
  exact Nat.lt_of_le_of_lt less (short chains)

/-- A realignment carries no more than before. -/
theorem syncFeedback_short {handle : LiveHandle m} (short : handle.Short) :
    Guards (handle.syncFeedback : Checked m (LiveHandle m)) Short := by
  rw [syncFeedback]
  split
  · next allowed =>
    have realigned : Guards (CipherFeedback.realign handle.chain : Checked m Chain)
        fun after => after.carry ≤ handle.carry := by
      rw [CipherFeedback.realign]
      split
      · exact Guards.pure (Nat.le_refl _)
      · apply Guards.after
        intro _
        apply Guards.after
        intro _
        apply Guards.after
        intro _
        exact Guards.after _ fun _ => Guards.pure (Nat.zero_le _)
    apply Guards.bind realigned
    intro after less
    exact Guards.pure fun chains => Nat.lt_of_le_of_lt less (short chains)
  · exact Guards.pure short

omit [Monad m] [LawfulMonad m] in
/-- A key leaves what is carried. -/
theorem carry_afterKeying (handle : LiveHandle m) (keying : Keying) :
    (handle.afterKeying keying).1.carry = handle.carry := by
  rw [afterKeying]
  cases keying.verdict <;> rfl

/-- A request that makes no call leaves less than a block carried. -/
theorem respond_short_of_silent {handle : LiveHandle m} (short : handle.Short) {request : Request}
    (silent : request.call? = none) :
    Ensures (handle.respond request) fun outcome =>
      ∀ next, outcome.handle = .live next → next.Short := by
  have optional (flags : Flags) : LiveHandle.Short { handle with flags } :=
    short.of_le ⟨rfl, rfl, rfl⟩ (Nat.le_refl handle.carry)
  refine (handle.respond_endsIn silent (syncFeedback_short short)).mono fun outcome ends => ?_
  -- All that is left to show is that a setting leaves a handle that carries no more.
  intro next left
  cases ends with
  | keyed key keying =>
    obtain rfl := Handle.live.inj left
    exact short.of_le (afterKeying_keeps handle keying).1
      (Nat.le_of_eq (carry_afterKeying handle keying))
  | valued iv =>
    obtain rfl := Handle.live.inj left
    exact short.of_le (afterIv_sameShape handle iv) (Nat.zero_le _)
  | counted counter =>
    obtain rfl := Handle.live.inj left
    have carry : (handle.afterCounter counter).1.carry = handle.carry := by
      obtain ⟨arena, only, _⟩ := setCounter_only handle counter
      rw [only]
    exact short.of_le (afterCounter_steady handle counter).toSameShape (Nat.le_of_eq carry)
  | aligned kept => exact Handle.live.inj left ▸ kept
  | stealing enable =>
    obtain rfl := Handle.live.inj left
    obtain ⟨flags, only⟩ := setStealing_only handle enable
    rw [only]
    exact optional flags
  | tagging enable =>
    obtain rfl := Handle.live.inj left
    obtain ⟨flags, only⟩ := setMac_only handle enable
    rw [only]
    exact optional flags
  | restored =>
    obtain rfl := Handle.live.inj left
    have less : handle.afterReset.1.carry ≤ handle.carry := by
      rw [afterReset]
      split
      · exact Nat.zero_le _
      · exact Nat.le_refl _
    exact short.of_le (afterReset_sameShape handle) less
  | shown | faulted => exact Handle.live.inj left ▸ short

/-- Whatever is asked of a handle, it is left with less than a block carried. -/
theorem respond_short {handle : LiveHandle m} (fitted : handle.Fitted)
    (keeps : handle.pin.algorithm.KeepsLengths) (short : handle.Short) (request : Request) :
    Ensures (handle.respond request) fun outcome =>
      ∀ next, outcome.handle = .live next → next.Short := by
  cases asked : request.call? with
  | some call =>
    cases judged : handle.verdict call with
    | ok =>
      have completed := perform_completes fitted keeps short (admits_of_verdict judged)
      rw [respond_call handle asked]
      refine Ensures.map completed fun result ends => ?_
      obtain ⟨⟨after, output⟩, rfl, shortAfter, _⟩ := ends
      exact fun next left => Handle.live.inj left ▸ shortAfter
    | error cause =>
      rw [respond_refusal asked (fitted.positive_of_mustAlign _) judged]
      exact Ensures.pure fun next left => Handle.live.inj left ▸ short
  | none => exact respond_short_of_silent short asked

/-- Every handle that can be reached carries less than a block. -/
theorem Reachable.short {handle : LiveHandle m} (reachable : handle.Reachable)
    (keeps : handle.pin.algorithm.KeepsLengths) : handle.Short := by
  induction reachable with
  | opened given =>
    have fitted := Fitted.opened given
    obtain ⟨_, _, _, rfl, _⟩ := Handle.openOn_gives given
    exact fun chains => fitted.positive chains
  | @requested handle next request outcome earlier returned left inductionHypothesis =>
    rw [(LeftBy.of_returned returned left).shape.pin] at keeps
    exact returned _ (respond_short earlier.fitted keeps (inductionHypothesis keeps) request) _ left

/-- Whatever has been done with a handle, a call is accepted exactly if it is valid. If the
verdict refuses it, it is answered with that cause, the handle is left exactly as it was, and
the primitive is not asked anything; a refused encryption fills the whole buffer with one byte,
and a refused decryption leaves it alone. Else the call goes through, and the buffer keeps its
length. No call is refused because the primitive lacked the mode. -/
theorem calls_accepted_exactly {handle : LiveHandle m} (reachable : handle.Reachable)
    (keeps : handle.pin.algorithm.KeepsLengths) {request : Request} {call : MessageCall}
    (asked : request.call? = some call) :
    (∀ cause, handle.verdict call = .error cause →
      ∃ left, handle.respond request = pure (handle.answered (.wrote (.error cause) left) []) ∧
        (call.direction = .encrypt → left = List.replicate call.buffer.length 0x42) ∧
        (call.direction = .decrypt → left = call.buffer)) ∧
    (handle.verdict call = .ok () →
      Ensures (handle.respond request) fun outcome =>
        ∃ (next : LiveHandle m) (written : Bytes),
          outcome = next.answered (.wrote (.ok ()) written) [] ∧
            written.length = call.buffer.length) ∧
    ∀ id mode, handle.verdict call ≠ .error (.configuration (.unsupportedMode id mode)) := by
  have fitted := reachable.fitted
  refine ⟨?_, ?_, handle.verdict_supports call⟩
  · intro cause refused
    refine ⟨call.spoiled, respond_refusal asked (fitted.positive_of_mustAlign _) refused, ?_, ?_⟩
    · intro encrypts
      rw [MessageCall.spoiled, encrypts, Direction.spoil, spoilByte]
    · intro decrypts
      rw [MessageCall.spoiled, decrypts, Direction.spoil]
  · intro accepted
    have completed :=
      perform_completes fitted keeps (reachable.short keeps) (admits_of_verdict accepted)
    rw [respond_call handle asked]
    refine Ensures.map completed fun result ends => ?_
    obtain ⟨⟨next, written⟩, rfl, _, width⟩ := ends
    exact ⟨next, written, rfl, width⟩

/-- The specimen in block chaining: twenty bytes are refused and spoil the output, and two blocks
are accepted. -/
theorem calls_accepted_exactly_specimen :
    let handle := Specimen.keyed .cbc {}
    (∃ left, handle.respond (.encrypt (Bytes.zeros 20) (Bytes.zeros 24)) =
        pure (handle.answered (.wrote (.error (.argument (.misaligned 20 16))) left) []) ∧
      left = List.replicate 24 0x42) ∧
    Ensures (handle.respond (.encrypt (Bytes.zeros 32) (Bytes.zeros 40))) fun outcome =>
      ∃ (next : LiveHandle Id) (written : Bytes),
        outcome = next.answered (.wrote (.ok ()) written) [] ∧ written.length = 40 := by
  intro handle
  have reachable : handle.Reachable := Specimen.reachable_keyed .cbc {} rfl rfl
  have keeps : handle.pin.algorithm.KeepsLengths :=
    Specimen.computes.keepsLengths (by decide) rfl
  have short : (Request.encrypt (Bytes.zeros 20) (Bytes.zeros 24)).call? =
      some ⟨.encrypt, Bytes.zeros 20, Bytes.zeros 24⟩ := rfl
  have whole : (Request.encrypt (Bytes.zeros 32) (Bytes.zeros 40)).call? =
      some ⟨.encrypt, Bytes.zeros 32, Bytes.zeros 40⟩ := rfl
  constructor
  · obtain ⟨left, refused, spoiled, _⟩ :=
      (calls_accepted_exactly reachable keeps short).1 (.argument (.misaligned 20 16))
        (by decide +kernel)
    exact ⟨left, refused, spoiled rfl⟩
  · exact (calls_accepted_exactly reachable keeps whole).2.1 (by decide +kernel)

end CipherEngine.LiveHandle
