import CipherEngine.Proofs.Handle.Verdict

/-!
# No refusal comes late

A mode that the primitive lacks would be refused only after the input was copied into the
output, and a refused decryption would then leave the input there. Opening asks for the
mode, and no request changes the pin, so on a handle that can be reached nothing but the
verdict refuses a call: a transform that is once begun goes through, or a step of it is out
of its domain. Nothing at all is assumed of the primitive.
-/
namespace CipherEngine

variable {m : Type → Type} {α β ε δ : Type}

/-- Every stop of the computation has a cause with the property. -/
def Blames [Functor m] (computation : ExceptT ε m α) (property : ε → Prop) : Prop :=
  Ensures computation.run fun result => ∀ cause, result = .error cause → property cause

variable [Monad m] [LawfulMonad m]

namespace Blames

/-- A value is no stop. -/
theorem pure (value : α) (property : ε → Prop) :
    Blames (Pure.pure value : ExceptT ε m α) property :=
  Ensures.pure nofun

/-- A computation stops where its first step or what follows stops. -/
theorem bind {first : ExceptT ε m α} {next : α → ExceptT ε m β} {property : ε → Prop}
    (blamed : Blames first property) (continued : ∀ value, Blames (next value) property) :
    Blames (first >>= next) property := by
  unfold Blames
  rw [ExceptT.run_bind]
  refine Ensures.bind blamed fun result stops => ?_
  cases result with
  | ok value => exact continued value
  | error cause => exact Ensures.pure fun _ same => Except.error.inj same ▸ stops cause rfl

/-- A computation without stops blames nothing. -/
theorem lift (computation : m α) (property : ε → Prop) :
    Blames (ExceptT.lift computation : ExceptT ε m α) property := by
  unfold Blames
  rw [ExceptT.run_lift]
  exact Ensures.map (Ensures.always computation fun _ => trivial) fun _ _ => nofun

/-- Renamed causes have what the names of the causes have. -/
theorem adapt {computation : ExceptT ε m α} {property : ε → Prop} {final : δ → Prop}
    {rename : ε → δ} (blamed : Blames computation property)
    (renamed : ∀ cause, property cause → final (rename cause)) :
    Blames (ExceptT.adapt rename computation) final := by
  refine Ensures.map blamed fun result stops cause same => ?_
  cases result with
  | ok value => cases same
  | error first =>
    obtain rfl := Except.error.inj same
    exact renamed first (stops first rfl)

end Blames

/-- The request stopped because a step was out of its domain, and was not refused. -/
def Stop.Faulty (stop : Stop) : Prop := ∃ cause, stop = .fault cause

namespace LiveHandle

/-- A checked computation is never refused. -/
theorem checked_faulty (computation : Checked m α) : Blames (checked computation) Stop.Faulty :=
  Blames.adapt (Ensures.always _ fun _ _ _ => trivial) fun cause _ => ⟨cause, rfl⟩

/-- In a mode that chains blocks, what is done with the cipher is not refused unless it refuses
itself: the cipher is there. -/
theorem Fitted.cipher_faulty {handle : LiveHandle m} (fitted : handle.Fitted)
    (chains : handle.mode.chainsBlocks = true) {next : KeyedCipher m → Attempt m β}
    (continued : ∀ cipher, Blames (next cipher) Stop.Faulty) :
    Blames (handle.cipher >>= next) Stop.Faulty := by
  obtain ⟨block, _, available⟩ := fitted.cipher_available chains
  rw [available, pure_bind]
  exact continued _

/-- So a mode with a state is not refused. -/
theorem Fitted.chained_faulty {handle : LiveHandle m} (fitted : handle.Fitted)
    (chains : handle.mode.chainsBlocks = true)
    (computation : KeyedCipher m → Checked m (Chain × Bytes)) :
    Blames (do
      let cipher ← handle.cipher
      let (chain, output) ← checked (computation cipher)
      pure (handle.withChain chain, output)) Stop.Faulty :=
  fitted.cipher_faulty chains fun _ => Blames.bind (checked_faulty _) fun _ => Blames.pure _ _

/-- And no transform is, in any mode. -/
theorem Fitted.transform_faulty {handle : LiveHandle m} (fitted : handle.Fitted)
    (direction : Direction) (buffer : Bytes) :
    Blames (handle.transform direction buffer) Stop.Faulty := by
  unfold transform
  cases mode : handle.mode with
  | none => exact Blames.pure _ _
  | stream =>
    have supported := fitted.supported
    rw [Primitive.supports, mode] at supported
    obtain ⟨stream, present⟩ := Option.isSome_iff_exists.mp supported
    simp only [transformStream, present]
    exact Blames.bind (Blames.lift _ _) fun _ => Blames.pure _ _
  | ecb =>
    exact fitted.cipher_faulty (by rw [mode]; rfl) fun _ =>
      Blames.bind (checked_faulty _) fun _ => Blames.pure _ _
  | cbc => exact fitted.chained_faulty (by rw [mode]; rfl) _
  | cfb => exact fitted.chained_faulty (by rw [mode]; rfl) _
  | ofb => exact fitted.chained_faulty (by rw [mode]; rfl) _
  | ctr => exact fitted.chained_faulty (by rw [mode]; rfl) _

/-- Neither is the transform of an input that was copied into its output. -/
theorem Fitted.transformInto_faulty {handle : LiveHandle m} (fitted : handle.Fitted)
    (direction : Direction) (input output : Bytes) :
    Blames (handle.transformInto direction input output) Stop.Faulty := by
  apply Blames.bind (checked_faulty _)
  intro pieces
  refine Blames.bind ((fitted.transform_faulty direction input).adapt ?_) fun _ => Blames.pure _ _
  rintro _ ⟨cause, rfl⟩
  exact ⟨cause, rfl⟩

/-- Nor is a MAC. -/
theorem Fitted.tagInto_faulty {handle : LiveHandle m} (fitted : handle.Fitted)
    (chaining : handle.mode = .cbc) (input output : Bytes) :
    Blames (handle.tagInto input output) Stop.Faulty := by
  refine fitted.cipher_faulty (chains_of_cbc chaining) fun cipher => ?_
  apply Blames.bind (checked_faulty _)
  rintro ⟨chain, written⟩
  cases written with
  | false => exact Blames.pure _ _
  | true =>
    apply Blames.bind (checked_faulty _)
    intro pieces
    exact Blames.bind (checked_faulty _) fun _ => Blames.pure _ _

/-- A call that the verdict accepts is not refused any more. -/
theorem Fitted.perform_faulty {handle : LiveHandle m} (fitted : handle.Fitted) {call : MessageCall}
    (accepted : handle.verdict call = .ok ()) : Blames (handle.perform call) Stop.Faulty := by
  rw [perform_of_admits (admits_of_verdict accepted) (fitted.positive_of_mustAlign _)]
  split
  · next yieldsMac =>
    simp only [mac, Bool.and_eq_true, decide_eq_true_eq] at yieldsMac
    exact fitted.tagInto_faulty yieldsMac.2.1 _ _
  · exact fitted.transformInto_faulty _ _ _

/-- Whatever the primitive does, a call to a handle that can be reached is refused by the verdict
or not at all, and no refusal finds the input in the output. -/
theorem refused_at_once {handle : LiveHandle m} (reachable : handle.Reachable)
    (call : MessageCall) :
    Ensures (handle.perform call).run fun result =>
      (∀ cause touched, result ≠ .error (.late cause touched)) ∧
        ∀ cause, result = .error (.refused cause) → handle.verdict call = .error cause := by
  have fitted := reachable.fitted
  cases judged : handle.verdict call with
  | ok =>
    refine Ensures.mono (fitted.perform_faulty judged) fun result stops => ⟨?_, ?_⟩
    · rintro cause touched rfl
      obtain ⟨fault, same⟩ := stops _ rfl
      cases same
    · rintro cause rfl
      obtain ⟨fault, same⟩ := stops _ rfl
      cases same
  | error cause =>
    rw [perform_refused (fitted.positive_of_mustAlign _) judged]
    refine Ensures.pure ⟨nofun, fun other same => ?_⟩
    cases same
    rfl

/-- So the answer to a call that is refused is the verdict, on the handle as it was and the
buffer as it was, spoiled or not. -/
theorem answer_refused_at_once {handle : LiveHandle m} (reachable : handle.Reachable)
    {request : Request} {call : MessageCall} (asked : request.call? = some call) :
    Ensures (handle.respond request) fun outcome =>
      ∀ cause written, outcome.reply = .ok (.wrote (.error cause) written) →
        handle.verdict call = .error cause ∧ outcome.handle = .live handle ∧
          written = call.spoiled := by
  rw [respond_call handle asked]
  refine Ensures.map (refused_at_once reachable call) fun result ends => ?_
  obtain ⟨early, judged⟩ := ends
  rintro cause written answered
  match result with
  | .ok _ => cases answered
  | .error (.refused first) =>
    cases answered
    exact ⟨judged cause rfl, rfl, rfl⟩
  | .error (.late first touched) => exact absurd rfl (early first touched)
  | .error (.fault _) => cases answered

end LiveHandle

end CipherEngine
