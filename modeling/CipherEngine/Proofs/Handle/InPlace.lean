import CipherEngine.Proofs.Coupling
import CipherEngine.Proofs.Handle.Verdict

/-!
# Calls in place and into another output

A message may be transformed where it lies, or into an output of at least its length. From
one state the two calls are one computation, seen in two ways: the primitive is asked the
same, the handle is left in the same state, and the same bytes are written. Only what lies
behind them differs, and it is left alone.

The two are judged by the lengths of their outputs, and where a MAC is made a message may be
shorter than a block and its output not. Then both calls are refused, but the one in place
for its room, and the other one, given a block of room, for its alignment.
-/
namespace CipherEngine

/-- The request to transform a buffer where it lies. -/
def Request.within (buffer : Bytes) : Direction → Request
  | .encrypt => .encryptInPlace buffer
  | .decrypt => .decryptInPlace buffer

/-- The request to transform an input into an output. -/
def Request.into (input output : Bytes) : Direction → Request
  | .encrypt => .encrypt input output
  | .decrypt => .decrypt input output

/-- A request in place works on its buffer. -/
theorem Request.call?_within (buffer : Bytes) (direction : Direction) :
    (within buffer direction).call? = some ⟨direction, buffer, buffer⟩ := by
  cases direction <;> rfl

/-- A request with an output works from its input into the output. -/
theorem Request.call?_into (input output : Bytes) (direction : Direction) :
    (into input output direction).call? = some ⟨direction, input, output⟩ := by
  cases direction <;> rfl

namespace LiveHandle

variable {m : Type → Type}

/-- In this direction the handle makes a MAC. -/
def Authenticates (handle : LiveHandle m) (direction : Direction) : Prop :=
  direction = .encrypt ∧ handle.mac = true

/-- The message is shorter than the MAC that is asked for. -/
structure Stunted (handle : LiveHandle m) (direction : Direction) (input : Bytes) : Prop where
  keyed : handle.keyed = true
  authenticates : handle.Authenticates direction
  short : input.length < handle.blockLength

/-- What two calls have written that went through, one in place and one into an output. Without
a MAC the front of the output is the message as it was transformed in place, and the rest of
the output is as it was. With a MAC, the new chaining value, it is the first block of both,
and every other byte of both is as it was. -/
structure WroteAlike (handle : LiveHandle m) (direction : Direction) (input output : Bytes)
    (next : LiveHandle m) (written otherWritten : Bytes) : Prop where
  plain : ¬ handle.Authenticates direction →
    otherWritten.take input.length = written ∧
      otherWritten.drop input.length = output.drop input.length
  tagged : handle.Authenticates direction → ∃ tag,
    tag.length = handle.blockLength ∧ next.arena.read .iv = tag ∧
      written = tag ++ input.drop handle.blockLength ∧
        otherWritten = tag ++ output.drop handle.blockLength

/-- What a call in place and one into an output come to, from one state. -/
inductive Alike (handle : LiveHandle m) (direction : Direction) (input output : Bytes) :
    Outcome m → Outcome m → Prop where
  /-- Both went through, and left the handle in one state. -/
  | done {next : LiveHandle m} {written otherWritten : Bytes} :
    ¬ handle.Stunted direction input →
    handle.WroteAlike direction input output next written otherWritten →
      Alike handle direction input output (next.answered (.wrote (.ok ()) written) [])
        (next.answered (.wrote (.ok ()) otherWritten) [])
  /-- Both were refused, for one cause, and left the handle as it was. -/
  | refused {cause : Refusal} :
    ¬ handle.Stunted direction input →
      Alike handle direction input output
        (handle.answered
          (.wrote (.error cause) (MessageCall.spoiled ⟨direction, input, input⟩)) [])
        (handle.answered
          (.wrote (.error cause) (MessageCall.spoiled ⟨direction, input, output⟩)) [])
  /-- The message was shorter than its MAC. Both were refused and left the handle as it was, the
  call in place for its room, and the other one for its room or else for its alignment. -/
  | stunted :
    handle.Stunted direction input →
      Alike handle direction input output
        (handle.answered (.wrote
          (.error (.argument (.shortOutput handle.blockLength input.length)))
          (List.replicate input.length spoilByte)) [])
        (handle.answered (.wrote
          (.error (.argument (if output.length < handle.blockLength
            then .shortOutput handle.blockLength output.length
            else .misaligned input.length handle.blockLength)))
          (List.replicate output.length spoilByte)) [])

/-- A MAC needs a block. -/
theorem Authenticates.needed_eq {handle : LiveHandle m} {direction : Direction}
    (authenticates : handle.Authenticates direction) (input output : Bytes) :
    handle.needed ⟨direction, input, output⟩ = handle.blockLength := by
  have tags : (direction = .encrypt && handle.mac) = true := by
    simp [authenticates.1, authenticates.2]
  rw [← requiredOutput_eq, requiredOutput, if_pos tags]

/-- Any other message needs its own length. -/
theorem needed_eq_of_plain {handle : LiveHandle m} {direction : Direction}
    (plain : ¬ handle.Authenticates direction) (input output : Bytes) :
    handle.needed ⟨direction, input, output⟩ = input.length := by
  have silent : ¬ (direction = .encrypt && handle.mac) = true := by
    simpa [Authenticates] using plain
  rw [← requiredOutput_eq, requiredOutput, if_neg silent]

/-- Only block chaining makes a MAC. -/
theorem Authenticates.chaining {handle : LiveHandle m} {direction : Direction}
    (authenticates : handle.Authenticates direction) : handle.mode = .cbc := by
  have tags := authenticates.2
  rw [mac, Bool.and_eq_true, decide_eq_true_eq] at tags
  exact tags.1

/-- A handle that makes a MAC does not steal, so all that it is given is whole blocks. -/
theorem Authenticates.aligned {handle : LiveHandle m} {direction : Direction}
    (authenticates : handle.Authenticates direction) (sound : handle.Sound) {call : MessageCall}
    (admitted : handle.Admits call) : handle.blockLength ∣ call.input.length := by
  have tags := authenticates.2
  rw [mac, Bool.and_eq_true] at tags
  have consistent := sound.consistent
  rw [Flags.consistent, tags.2, Bool.and_true, Bool.not_eq_true'] at consistent
  exact admitted.aligned_of_plain authenticates.chaining consistent

/-- Calls of one message have one verdict if both outputs have room. -/
theorem verdict_eq_of_room {handle : LiveHandle m} {direction : Direction}
    {input output other : Bytes}
    (room : handle.keyed = true → handle.needed ⟨direction, input, output⟩ ≤ output.length)
    (otherRoom : handle.keyed = true → handle.needed ⟨direction, input, other⟩ ≤ other.length) :
    handle.verdict ⟨direction, input, output⟩ = handle.verdict ⟨direction, input, other⟩ := by
  rw [verdict, verdict]
  by_cases unkeyed : handle.keyed = false
  · rw [if_pos unkeyed, if_pos unkeyed]
  · have keyed := Bool.eq_true_of_not_eq_false unkeyed
    rw [if_neg unkeyed, if_neg unkeyed, if_neg (Nat.not_lt.mpr (room keyed)),
      if_neg (Nat.not_lt.mpr (otherRoom keyed))]

/-- Unless the message is shorter than its MAC, the two calls have one verdict. -/
theorem verdict_eq_of_not_stunted {handle : LiveHandle m} {direction : Direction}
    {input output : Bytes} (room : input.length ≤ output.length)
    (whole : ¬ handle.Stunted direction input) :
    handle.verdict ⟨direction, input, input⟩ = handle.verdict ⟨direction, input, output⟩ := by
  have fits (keyed : handle.keyed = true) (other : Bytes) :
      handle.needed ⟨direction, input, other⟩ ≤ input.length := by
    by_cases authenticates : handle.Authenticates direction
    · rw [authenticates.needed_eq]
      exact Nat.not_lt.mp fun short => whole ⟨keyed, authenticates, short⟩
    · exact Nat.le_of_eq (needed_eq_of_plain authenticates input other)
  exact verdict_eq_of_room (fun keyed => fits keyed input)
    fun keyed => Nat.le_trans (fits keyed output) room

/-- A message that is shorter than its MAC has no room for it where it lies. -/
theorem Stunted.verdict_within {handle : LiveHandle m} {direction : Direction} {input : Bytes}
    (stunted : handle.Stunted direction input) :
    handle.verdict ⟨direction, input, input⟩ =
      .error (.argument (.shortOutput handle.blockLength input.length)) := by
  have keyed : ¬ handle.keyed = false := by simp [stunted.keyed]
  have needed := stunted.authenticates.needed_eq input input
  have crowded : input.length < handle.needed ⟨direction, input, input⟩ := needed ▸ stunted.short
  rw [verdict, if_neg keyed, if_pos crowded, needed]

/-- And it is no whole blocks, unless there is nothing of it. -/
theorem Stunted.verdict_into {handle : LiveHandle m} {direction : Direction} {input : Bytes}
    (stunted : handle.Stunted direction input) (filled : input ≠ []) (output : Bytes) :
    handle.verdict ⟨direction, input, output⟩ =
      .error (.argument (if output.length < handle.blockLength
        then .shortOutput handle.blockLength output.length
        else .misaligned input.length handle.blockLength)) := by
  have keyed : ¬ handle.keyed = false := by simp [stunted.keyed]
  have judged : handle.NeedsBlocks input.length :=
    .inr ⟨stunted.authenticates.chaining, fun steals => Nat.lt_asymm steals.2 stunted.short⟩
  have broken : ¬ handle.blockLength ∣ input.length :=
    Nat.not_dvd_of_pos_of_lt (List.length_pos_iff.mpr filled) stunted.short
  rw [verdict, if_neg keyed, stunted.authenticates.needed_eq]
  by_cases crowded : output.length < handle.blockLength
  · rw [if_pos crowded, if_pos crowded]
  · rw [if_neg crowded, if_neg crowded, if_pos ⟨judged, broken⟩]

variable [Monad m] [LawfulMonad m] {handle : LiveHandle m}

/-- The two went through, left one handle, and wrote alike. -/
def DoneAlike (handle : LiveHandle m) (direction : Direction) (input output : Bytes)
    (result other : Except Stop (LiveHandle m × Bytes)) : Prop :=
  ∃ next written otherWritten, result = .ok (next, written) ∧ other = .ok (next, otherWritten) ∧
    handle.WroteAlike direction input output next written otherWritten

/-- A transform of a message where it lies is the one into an output, up to what is behind. -/
theorem transformInto_alike (fitted : handle.Fitted) (keeps : handle.pin.algorithm.KeepsLengths)
    (short : handle.Short) {direction : Direction} (plain : ¬ handle.Authenticates direction)
    {input output : Bytes} (room : input.length ≤ output.length) :
    Coupled (DoneAlike handle direction input output)
      (handle.transformInto direction input input).run
      (handle.transformInto direction input output).run := by
  have completed := transform_completes fitted keeps short direction input
  rw [transformInto, transformInto, checked_split_bind (Nat.le_refl _), checked_split_bind room]
  simp only [completed.adapt_eq]
  refine Coupled.afterCompleted completed ?_
  rintro ⟨next, front⟩ ⟨_, width⟩
  refine Coupled.pure ⟨next, _, _, rfl, rfl, fun _ => ⟨?_, ?_⟩, fun tags => absurd tags plain⟩
  · rw [List.take_left' width, List.drop_length, List.append_nil]
  · exact List.drop_left' width

/-- A MAC of a message is the same over the message as over another output with room for it. -/
theorem tagInto_alike (fitted : handle.Fitted) (keeps : handle.pin.algorithm.KeepsLengths)
    (short : handle.Short) {direction : Direction} (tags : handle.Authenticates direction)
    {input output : Bytes} (aligned : handle.blockLength ∣ input.length) (filled : input ≠ [])
    (room : handle.blockLength ≤ input.length) (otherRoom : handle.blockLength ≤ output.length) :
    Coupled (DoneAlike handle direction input output)
      (handle.tagInto input input).run (handle.tagInto input output).run := by
  have chains := chains_of_cbc tags.chaining
  obtain ⟨cipher, available, keepsBlocks⟩ := fitted.cipher_keeps keeps chains
  have completed :=
    BlockChaining.mac_completes keepsBlocks (fitted.chain_fits (short chains)) input
  rw [tagInto, tagInto, available, pure_bind, pure_bind]
  refine Coupled.afterCompleted (completed.adapt Stop.fault) ?_
  rintro ⟨chain, written⟩ ⟨fits, writes⟩
  obtain rfl : written = true := by
    rw [writes, Nat.div_mul_cancel aligned]
    exact Nat.ne_of_gt (List.length_pos_iff.mpr filled)
  have kept : (handle.withChain chain).arena.read .iv = chain.iv :=
    congrArg Chain.iv (fitted.chain_withChain fits)
  have width : (handle.withChain chain).blockLength = handle.blockLength := rfl
  -- The tag is as long as the front that it replaces, whichever buffer that is of.
  have replaced (buffer : Bytes) (inside : handle.blockLength ≤ buffer.length) :
      chain.iv.length = (buffer.take handle.blockLength).length :=
    fits.iv.trans (List.length_take_of_le inside).symm
  simp only [if_true]
  rw [width, checked_split_bind room, checked_split_bind otherRoom, Checked.replace,
    Checked.replace, if_pos (replaced input room), if_pos (replaced output otherRoom),
    checked_pure_bind, checked_pure_bind]
  exact Coupled.pure ⟨handle.withChain chain, _, _, rfl, rfl, fun plain => absurd tags plain,
    fun _ => ⟨chain.iv, fits.iv, kept, rfl, rfl⟩⟩

/-- Two calls that are both admitted go through, leave one handle, and write alike. -/
theorem perform_alike (fitted : handle.Fitted) (keeps : handle.pin.algorithm.KeepsLengths)
    (sound : handle.Sound) (short : handle.Short) {direction : Direction} {input output : Bytes}
    (filled : handle.Authenticates direction → input ≠ [])
    (admitted : handle.Admits ⟨direction, input, input⟩)
    (otherAdmitted : handle.Admits ⟨direction, input, output⟩) :
    Coupled (DoneAlike handle direction input output)
      (handle.perform ⟨direction, input, input⟩).run
      (handle.perform ⟨direction, input, output⟩).run := by
  have positive := fitted.positive_of_mustAlign input.length
  have room := admitted.room
  have otherRoom := otherAdmitted.room
  rw [requiredOutput_eq] at room otherRoom
  rw [perform_of_admits admitted positive, perform_of_admits otherAdmitted positive]
  by_cases tags : handle.Authenticates direction
  · have yields : (direction = .encrypt && handle.mac) = true := by
      simp [tags.1, tags.2]
    rw [tags.needed_eq] at room otherRoom
    rw [if_pos yields, if_pos yields]
    exact tagInto_alike fitted keeps short tags (tags.aligned sound admitted) (filled tags) room
      otherRoom
  · have silent : ¬ (direction = .encrypt && handle.mac) = true := by
      simpa [Authenticates] using tags
    rw [needed_eq_of_plain tags] at otherRoom
    rw [if_neg silent, if_neg silent]
    exact transformInto_alike fitted keeps short tags otherRoom

/-- From one state, a call in place and a call into an output of at least the length of the
message are one computation, which leaves one handle. Either both go through, with the same
bytes written, or both are refused, and then for one cause, unless the message is shorter than
the MAC that is asked for. Encryption may have MAC output, if the message is not empty. -/
theorem in_place_agrees (reachable : handle.Reachable)
    (keeps : handle.pin.algorithm.KeepsLengths) (direction : Direction) {input output : Bytes}
    (room : input.length ≤ output.length)
    (filled : handle.Authenticates direction → input ≠ []) :
    Coupled (Alike handle direction input output) (handle.respond (.within input direction))
      (handle.respond (.into input output direction)) := by
  have fitted := reachable.fitted
  have positive := fitted.positive_of_mustAlign input.length
  have asked := Request.call?_within input direction
  have otherAsked := Request.call?_into input output direction
  by_cases stunted : handle.Stunted direction input
  · obtain rfl := stunted.authenticates.1
    rw [respond_refusal asked positive stunted.verdict_within, respond_refusal otherAsked positive
      (stunted.verdict_into (filled stunted.authenticates) output)]
    exact Coupled.pure (.stunted stunted)
  · have same := verdict_eq_of_not_stunted room stunted
    cases judged : handle.verdict ⟨direction, input, input⟩ with
    | error cause =>
      rw [respond_refusal asked positive judged,
        respond_refusal otherAsked positive (same.symm.trans judged)]
      exact Coupled.pure (.refused stunted)
    | ok =>
      rw [respond_call handle asked, respond_call handle otherAsked]
      have performed := perform_alike fitted keeps reachable.sound (reachable.short keeps) filled
        (admits_of_verdict judged) (admits_of_verdict (same.symm.trans judged))
      refine (coupling m).map performed ?_
      rintro _ _ ⟨next, written, otherWritten, rfl, rfl, alike⟩
      exact .done stunted alike

/-- The specimen after a message that ended inside a block, in output feedback, and with MAC
output: two bytes with room for four, and a block with room for more. -/
theorem in_place_agrees_specimen :
    let feeding := (Specimen.keyed .ofb {}).after (.encryptInPlace [1])
    let tagging := Specimen.keyed .cbc { mac := true }
    Coupled (Alike feeding .decrypt [2, 3] (Bytes.zeros 4))
        (feeding.respond (.decryptInPlace [2, 3]))
        (feeding.respond (.decrypt [2, 3] (Bytes.zeros 4))) ∧
      Coupled (Alike tagging .encrypt (Bytes.zeros 16) (Bytes.zeros 20))
        (tagging.respond (.encryptInPlace (Bytes.zeros 16)))
        (tagging.respond (.encrypt (Bytes.zeros 16) (Bytes.zeros 20))) := by
  intro feeding tagging
  have keeps := Specimen.computes.keepsLengths (by decide) rfl
  have fed : feeding.Reachable := (Specimen.reachable_keyed .ofb {} rfl rfl).after _
  have fedKeeps : feeding.pin.algorithm.KeepsLengths := by
    rw [show feeding.pin = _ from (sameShape_after _ _).pin]
    exact keeps
  have tagged : tagging.Reachable := Specimen.reachable_keyed .cbc { mac := true } rfl rfl
  exact ⟨in_place_agrees fed fedKeeps .decrypt (by decide) (fun tags => nomatch tags.1),
    in_place_agrees tagged keeps .encrypt (by decide) (fun _ => by decide)⟩

/-- Of a message that is shorter than its MAC the two calls are refused for different causes. -/
theorem in_place_refused_otherwise :
    let handle := Specimen.keyed .cbc { mac := true }
    handle.Reachable ∧ handle.pin.algorithm.KeepsLengths ∧ handle.mac = true ∧
      ([1] : Bytes) ≠ [] ∧ [1].length ≤ (Bytes.zeros 16).length ∧
      handle.respond (.encryptInPlace [1]) =
        handle.answered (.wrote (.error (.argument (.shortOutput 16 1))) [spoilByte]) [] ∧
      handle.respond (.encrypt [1] (Bytes.zeros 16)) =
        handle.answered (.wrote (.error (.argument (.misaligned 1 16)))
          (List.replicate 16 spoilByte)) [] :=
  ⟨Specimen.reachable_keyed .cbc { mac := true } rfl rfl,
    Specimen.computes.keepsLengths (by decide) rfl, rfl, by decide, by decide, rfl, rfl⟩

end LiveHandle

end CipherEngine
