import CipherEngine.Proofs.Chaining.BlockChaining
import CipherEngine.Proofs.Chaining.Codebook
import CipherEngine.Proofs.Chaining.Counter
import CipherEngine.Proofs.Handle.FeedbackRun
import CipherEngine.Proofs.Handle.Paired

/-!
# Two handles in step

Paired handles are in step while their states of the mode settle to the same;
decryption in blocks keeps a previous chaining value that encryption does not
keep, so they need not be equal. Without stealing, a message that goes over is
opened as it was, in every mode, and leaves the two in step.
-/
namespace CipherEngine

open Keystream

variable {m : Type → Type}

namespace LiveHandle

/-- In a feedback mode, the message went through the byte-by-byte machine to the
ciphertext, and left the handle where it leaves the machine. -/
def Streams (functions : BlockFunctions) (handle next : LiveHandle m)
    (message ciphertext : Bytes) : Prop :=
  ∀ feedback, handle.mode.feedback? .encrypt = some feedback →
    let passed :=
      passBytes (functions.encrypt (handle.arena.read .live)) feedback handle.chain message
    settle next.chain = settle passed.1 ∧ ciphertext = passed.2

/-- Nothing has gone through yet. -/
theorem Streams.refl (functions : BlockFunctions) (handle : LiveHandle m) :
    handle.Streams functions handle [] [] :=
  fun _ _ => ⟨rfl, rfl⟩

/-- Outside the feedback modes, the machine says nothing. -/
theorem Streams.of_silent (functions : BlockFunctions) {handle : LiveHandle m}
    (silent : handle.mode.feedback? .encrypt = none) (next : LiveHandle m)
    (message ciphertext : Bytes) : handle.Streams functions next message ciphertext := by
  intro feedback carries
  rw [silent] at carries
  cases carries

/-- What went through after another message, went through with it. -/
theorem Streams.trans {functions : BlockFunctions} {handle middle last : LiveHandle m}
    {first second ciphertext more : Bytes} (continues : handle.Continues middle)
    (earlier : handle.Streams functions middle first ciphertext)
    (later : middle.Streams functions last second more) :
    handle.Streams functions last (first ++ second) (ciphertext ++ more) := by
  intro feedback carries
  obtain ⟨middleChain, firstBytes⟩ := earlier feedback carries
  obtain ⟨lastChain, secondBytes⟩ := later feedback (continues.shape.mode.symm ▸ carries)
  rw [continues.live] at lastChain secondBytes
  obtain ⟨sameChain, sameBytes⟩ := pass_congr (functions.encrypt (handle.arena.read .live))
    feedback second middleChain
  rw [pass_append]
  exact ⟨lastChain.trans sameChain, by rw [firstBytes, secondBytes, sameBytes]⟩

variable [Monad m]

/-- The receiver can follow the sender: the two are paired without stealing, in a mode that
works on blocks, and are at the same place of the message. -/
structure InStep (functions : BlockFunctions) (sender receiver : LiveHandle m) : Prop extends
    Paired functions sender receiver where
  blocks : sender.mode ≠ .stream
  plain : sender.stealing = false
  small : sender.mode.chainsBlocks = true → sender.carry < sender.blockLength
  boundary : sender.mode.feedback? .encrypt = none → sender.carry = 0
  chain : settle receiver.chain = settle sender.chain

/-- The message goes over as it is, and the two handles are in step again. -/
def Delivers (functions : BlockFunctions) (sender receiver : LiveHandle m) (message : Bytes) :
    Prop :=
  ∃ next nextReceiver ciphertext,
    sender.Carries receiver next nextReceiver ⟨message, ciphertext, message⟩ ∧
    next.InStep functions nextReceiver ∧ sender.Streams functions next message ciphertext

variable {functions : BlockFunctions} {sender receiver : LiveHandle m}

/-- What two states have in common that settle to the same. -/
theorem InStep.chain_eq (inStep : sender.InStep functions receiver) :
    receiver.chain.iv = sender.chain.iv ∧ receiver.chain.counter = sender.chain.counter ∧
      receiver.chain.scratch = sender.chain.scratch ∧
      receiver.chain.carry = sender.chain.carry := by
  have same := inStep.chain
  constructor
  · simpa using congrArg Chain.iv same
  constructor
  · simpa using congrArg Chain.counter same
  constructor
  · simpa using congrArg Chain.scratch same
  · simpa using congrArg Chain.carry same

/-- Both states of the mode fit. -/
theorem InStep.fits (inStep : sender.InStep functions receiver)
    (chains : sender.mode.chainsBlocks = true) :
    sender.chain.Fits sender.blockLength ∧ receiver.chain.Fits sender.blockLength := by
  have small := inStep.small chains
  have otherSmall : receiver.chain.carry < receiver.blockLength := by
    rw [inStep.chain_eq.2.2.2, inStep.width]
    exact small
  have fits := inStep.otherFitted.chain_fits otherSmall
  exact ⟨inStep.fitted.chain_fits small, inStep.width ▸ fits⟩

/-- A message that was opened as it was goes over, if the states that it leaves settle to
the same. -/
theorem InStep.delivered (inStep : sender.InStep functions receiver) {after other : Chain}
    (fits : after.Fits sender.blockLength) (otherFits : other.Fits sender.blockLength)
    (boundary : sender.mode.feedback? .encrypt = none → after.carry = 0)
    (same : settle other = settle after) {message ciphertext : Bytes}
    (width : ciphertext.length = message.length)
    (sends : Gives (sender.transform .encrypt message) (sender.withChain after, ciphertext))
    (opens : Gives (receiver.transform .decrypt ciphertext) (receiver.withChain other, message))
    (streams : sender.Streams functions (sender.withChain after) message ciphertext) :
    sender.Delivers functions receiver message := by
  have goesOn := withChain_continues sender after
  have otherGoesOn := withChain_continues receiver other
  refine ⟨_, _, ciphertext, ⟨width, rfl, sends, opens, goesOn, otherGoesOn⟩,
    ⟨inStep.continues goesOn otherGoesOn, inStep.blocks, inStep.plain, ?_, boundary, ?_⟩, streams⟩
  · exact fun _ => fits.carry
  · rw [inStep.fitted.chain_withChain fits,
      inStep.otherFitted.chain_withChain (inStep.width ▸ otherFits)]
    exact same

variable [LawfulMonad m]

/-- Without chaining, every block goes over on its own. -/
theorem InStep.delivers_ecb (inStep : sender.InStep functions receiver) (mode : sender.mode = .ecb)
    {message : Bytes} (aligned : sender.blockLength ∣ message.length) :
    sender.Delivers functions receiver message := by
  have chains : sender.mode.chainsBlocks = true := by rw [mode]; rfl
  obtain ⟨cipher, available, context, computes⟩ :=
    inStep.fitted.cipher_eq chains inStep.computes
  obtain ⟨fits, otherFits⟩ := inStep.fits chains
  obtain ⟨alike, _⟩ := inStep.chain_eq
  obtain ⟨ciphertext, width, encrypted, decrypted⟩ := Codebook.transform_returns computes
    (context ▸ inStep.invertible) fits otherFits alike aligned
  have sends : Gives (sender.transform .encrypt message) (sender, ciphertext) := by
    rw [transform, mode]
    simp only [available]
    apply Gives.bind (Gives.pure cipher)
    exact Gives.bind (encrypted.adapt Stop.fault) (Gives.pure _)
  have opens : Gives (receiver.transform .decrypt ciphertext) (receiver, message) := by
    rw [transform, inStep.mode, mode]
    simp only [inStep.cipher_eq chains, available]
    apply Gives.bind (Gives.pure cipher)
    exact Gives.bind (decrypted.adapt Stop.fault) (Gives.pure _)
  have silent : sender.mode.feedback? .encrypt = none := by rw [mode]; rfl
  exact ⟨sender, receiver, ciphertext,
    ⟨width, rfl, sends, opens, Continues.refl sender, Continues.refl receiver⟩, inStep,
    Streams.of_silent functions silent sender message ciphertext⟩

/-- A chained message goes over, and the last ciphertext block is the next chaining value
on both sides. -/
theorem InStep.delivers_cbc (inStep : sender.InStep functions receiver) (mode : sender.mode = .cbc)
    {message : Bytes} (aligned : sender.blockLength ∣ message.length) :
    sender.Delivers functions receiver message := by
  have chains : sender.mode.chainsBlocks = true := by rw [mode]; rfl
  have silent : sender.mode.feedback? .encrypt = none := by rw [mode]; rfl
  obtain ⟨cipher, available, context, computes⟩ :=
    inStep.fitted.cipher_eq chains inStep.computes
  obtain ⟨fits, otherFits⟩ := inStep.fits chains
  have boundary : sender.chain.carry = 0 := inStep.boundary silent
  obtain ⟨alike, counter, scratch, otherBoundary⟩ := inStep.chain_eq
  have plain : BlockChaining.steals false message.length sender.blockLength = false := rfl
  obtain ⟨iv, previous, ciphertext, ivWidth, previousWidth, width, encrypted, decrypted⟩ :=
    BlockChaining.encrypt_returns computes (context ▸ inStep.invertible) fits otherFits alike
      plain aligned
  have same : settle { receiver.chain with iv, previous } = settle { sender.chain with iv } :=
    settle_eq_of_boundary (otherBoundary.trans boundary) boundary rfl counter scratch
  have sends : Gives (sender.transform .encrypt message)
      (sender.withChain { sender.chain with iv }, ciphertext) := by
    rw [transform, mode, inStep.plain]
    exact chained_gives available encrypted
  have opens : Gives (receiver.transform .decrypt ciphertext)
      (receiver.withChain { receiver.chain with iv, previous }, message) := by
    rw [transform, inStep.mode, mode, inStep.stealing, inStep.plain]
    exact chained_gives ((inStep.cipher_eq chains).trans available) decrypted
  have sentFits : Chain.Fits sender.blockLength { sender.chain with iv } :=
    ⟨ivWidth, fits.previous, fits.counter, fits.scratch, fits.carry⟩
  have receivedFits : Chain.Fits sender.blockLength { receiver.chain with iv, previous } :=
    ⟨ivWidth, previousWidth, otherFits.counter, otherFits.scratch, otherFits.carry⟩
  exact inStep.delivered sentFits receivedFits (fun _ => boundary) same width sends opens
    (Streams.of_silent functions silent _ message ciphertext)

/-- A masked message goes over, and both sides have used up the same counters. -/
theorem InStep.delivers_ctr (inStep : sender.InStep functions receiver) (mode : sender.mode = .ctr)
    (message : Bytes) : sender.Delivers functions receiver message := by
  have chains : sender.mode.chainsBlocks = true := by rw [mode]; rfl
  have silent : sender.mode.feedback? .encrypt = none := by rw [mode]; rfl
  obtain ⟨cipher, available, _, computes⟩ := inStep.fitted.cipher_eq chains inStep.computes
  obtain ⟨fits, otherFits⟩ := inStep.fits chains
  have boundary : sender.chain.carry = 0 := inStep.boundary silent
  obtain ⟨iv, alike, _, otherBoundary⟩ := inStep.chain_eq
  obtain ⟨counter, ciphertext, counterWidth, width, encrypted, decrypted⟩ :=
    Counter.transform_returns computes fits otherFits alike message
  have wiped := Bytes.length_zeros sender.blockLength
  have same : settle { receiver.chain with counter, scratch := Bytes.zeros sender.blockLength } =
      settle { sender.chain with counter, scratch := Bytes.zeros sender.blockLength } :=
    settle_eq_of_boundary (otherBoundary.trans boundary) boundary iv rfl rfl
  have sends : Gives (sender.transform .encrypt message)
      (sender.withChain
        { sender.chain with counter, scratch := Bytes.zeros sender.blockLength }, ciphertext) := by
    rw [transform, mode]
    exact chained_gives available encrypted
  have opens : Gives (receiver.transform .decrypt ciphertext)
      (receiver.withChain
        { receiver.chain with counter, scratch := Bytes.zeros sender.blockLength }, message) := by
    rw [transform, inStep.mode, mode]
    exact chained_gives ((inStep.cipher_eq chains).trans available) decrypted
  have sentFits : Chain.Fits sender.blockLength
      { sender.chain with counter, scratch := Bytes.zeros sender.blockLength } :=
    ⟨fits.iv, fits.previous, counterWidth, wiped, fits.carry⟩
  have receivedFits : Chain.Fits sender.blockLength
      { receiver.chain with counter, scratch := Bytes.zeros sender.blockLength } :=
    ⟨otherFits.iv, otherFits.previous, counterWidth, wiped, otherFits.carry⟩
  exact inStep.delivered sentFits receivedFits (fun _ => boundary) same width sends opens
    (Streams.of_silent functions silent _ message ciphertext)

/-- In a feedback mode, what goes over is what the byte-by-byte machine makes of it. -/
theorem InStep.delivers_feedback (inStep : sender.InStep functions receiver) {feedback : Feedback}
    (carries : sender.mode.feedback? .encrypt = some feedback) (message : Bytes) :
    sender.Delivers functions receiver message := by
  obtain ⟨back, backCarries, returns⟩ := Mode.feedback?_returns carries
  let encipher := functions.encrypt (sender.arena.read .live)
  let passed := passBytes encipher feedback sender.chain message
  obtain ⟨after, encrypted, fits, settled⟩ := transform_feedback inStep.fitted inStep.computes
    (inStep.small (Mode.chainsBlocks_of_feedback? carries)) carries message
  have otherComputes : receiver.pin.algorithm.Computes functions := by
    rw [inStep.algorithm]
    exact inStep.computes
  have otherSmall : receiver.chain.carry < receiver.blockLength := by
    rw [inStep.width]
    exact (inStep.fits (Mode.chainsBlocks_of_feedback? carries)).2.carry
  have otherCarries : receiver.mode.feedback? .decrypt = some back := by
    rw [inStep.mode]
    exact backCarries
  obtain ⟨other, decrypted, otherFits, otherSettled⟩ := transform_feedback inStep.otherFitted
    otherComputes otherSmall otherCarries passed.2
  rw [inStep.live] at decrypted otherSettled
  -- The receiver's machine starts where the sender's does, and takes the bytes back.
  obtain ⟨sameChain, sameBytes⟩ := pass_congr encipher back passed.2 inStep.chain
  rw [pass_returns encipher returns sender.chain message] at sameChain sameBytes
  rw [sameBytes] at decrypted
  refine inStep.delivered fits (inStep.width ▸ otherFits) ?_
    (otherSettled.trans (sameChain.trans settled.symm))
    (length_pass encipher feedback sender.chain message) encrypted decrypted ?_
  · intro silent
    rw [carries] at silent
    cases silent
  · intro again otherwise
    obtain rfl := Option.some.inj (carries.symm.trans otherwise)
    rw [inStep.fitted.chain_withChain fits]
    exact ⟨settled, rfl⟩

/-- Every message that need not be aligned, or is, goes over. -/
theorem InStep.delivers (inStep : sender.InStep functions receiver) {message : Bytes}
    (aligned : sender.mustAlign message.length = true →
      message.length % sender.blockLength = 0) :
    sender.Delivers functions receiver message := by
  cases mode : sender.mode with
  | none =>
    have sends : Gives (sender.transform .encrypt message) (sender, message) := by
      rw [transform, mode]
      exact Gives.pure _
    have opens : Gives (receiver.transform .decrypt message) (receiver, message) := by
      rw [transform, inStep.mode, mode]
      exact Gives.pure _
    have silent : sender.mode.feedback? .encrypt = none := by rw [mode]; rfl
    exact ⟨sender, receiver, message,
      ⟨rfl, rfl, sends, opens, Continues.refl sender, Continues.refl receiver⟩, inStep,
      Streams.of_silent functions silent sender message message⟩
  | ecb =>
    have judged : sender.mustAlign message.length = true := by rw [mustAlign, mode]
    exact inStep.delivers_ecb mode (Nat.dvd_of_mod_eq_zero (aligned judged))
  | cbc =>
    have judged : sender.mustAlign message.length = true := by
      rw [mustAlign, mode, inStep.plain]
      rfl
    exact inStep.delivers_cbc mode (Nat.dvd_of_mod_eq_zero (aligned judged))
  | cfb => exact inStep.delivers_feedback (congrArg (Mode.feedback? · .encrypt) mode) message
  | ofb => exact inStep.delivers_feedback (congrArg (Mode.feedback? · .encrypt) mode) message
  | ctr => exact inStep.delivers_ctr mode message
  | stream => exact absurd mode inStep.blocks

end LiveHandle

end CipherEngine
