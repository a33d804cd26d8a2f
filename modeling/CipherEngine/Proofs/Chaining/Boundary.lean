import CipherEngine.Chaining.BlockChaining
import CipherEngine.Chaining.Counter
import CipherEngine.Proofs.Computation

/-!
# Modes without a carry

Block chaining and counter mode end every call at a block boundary: whatever the
cipher does, they hand the carry on as it is.
-/
namespace CipherEngine

variable {m : Type → Type} [Monad m] [LawfulMonad m]

namespace BlockChaining

/-- An encryption of whole blocks leaves what is carried. So do the other parts of block chaining,
below: none of them looks at it. -/
theorem encryptRun_carry (cipher : KeyedCipher m) (chain : Chain) (buffer : Bytes) :
    Guards (encryptRun cipher chain buffer) fun result => result.1.carry = chain.carry := by
  rw [encryptRun]
  cases cipher.bulk with
  | some bulk => exact Guards.after _ fun _ => Guards.pure rfl
  | none =>
    apply Guards.after
    intro _
    exact Guards.after _ fun _ => Guards.pure rfl

/-- A decryption leaves it, block by block. -/
theorem decryptEach_carry (cipher : KeyedCipher m) (chain : Chain) (blocks : List Bytes) :
    Guards (decryptEach cipher chain blocks) fun result => result.1.carry = chain.carry := by
  induction blocks generalizing chain with
  | nil => exact Guards.pure rfl
  | cons block rest inductionHypothesis =>
    rw [decryptEach]
    apply Guards.after
    intro previous
    apply Guards.after
    intro _
    apply Guards.after
    intro iv
    apply Guards.bind (inductionHypothesis { chain with iv, previous })
    intro _ kept
    exact Guards.pure kept

/-- And so does one of whole blocks, with bulk routines or without. -/
theorem decryptRun_carry (cipher : KeyedCipher m) (chain : Chain) (buffer : Bytes) :
    Guards (decryptRun cipher chain buffer) fun result => result.1.carry = chain.carry := by
  rw [decryptRun]
  cases cipher.bulk with
  | some bulk => exact Guards.after _ fun _ => Guards.pure rfl
  | none =>
    apply Guards.after
    intro _
    exact Guards.bind (decryptEach_carry cipher chain _) fun _ kept => Guards.pure kept

/-- Stealing for the last block leaves it. -/
theorem stealTail_carry (cipher : KeyedCipher m) (chain : Chain) (block tail : Bytes) :
    Guards (stealTail cipher chain block tail) fun result => result.1.carry = chain.carry := by
  rw [stealTail]
  apply Guards.after
  intro _
  apply Guards.after
  intro _
  apply Guards.after
  intro _
  apply Guards.after
  intro _
  exact Guards.after _ fun _ => Guards.pure rfl

/-- And so does giving back what was stolen. -/
theorem returnTail_carry (cipher : KeyedCipher m) (chain : Chain) (swapped tail : Bytes) :
    Guards (returnTail cipher chain swapped tail) fun result =>
      result.1.carry = chain.carry := by
  have kept : Guards (chain.keepPrevious : Checked m Chain) fun after =>
      after.carry = chain.carry := by
    rw [Chain.keepPrevious]
    exact Guards.after _ fun _ => Guards.pure rfl
  rw [returnTail]
  apply Guards.bind kept
  intro after same
  apply Guards.after
  intro _
  apply Guards.after
  intro _
  apply Guards.after
  intro _
  exact Guards.after _ fun _ => Guards.pure same

/-- Encryption hands the carry on, with stealing or without. -/
theorem encrypt_carry (cipher : KeyedCipher m) (stealing : Bool) (chain : Chain)
    (buffer : Bytes) :
    Guards (encrypt cipher stealing chain buffer) fun result =>
      result.1.carry = chain.carry := by
  rw [encrypt]
  split
  · apply Guards.after
    intro _
    apply Guards.after
    intro _
    apply Guards.bind (encryptRun_carry cipher chain _)
    intro run same
    apply Guards.after
    intro _
    apply Guards.after
    intro _
    exact Guards.bind (stealTail_carry cipher run.1 _ _) fun _ kept =>
      Guards.pure (kept.trans same)
  · apply Guards.after
    intro _
    apply Guards.after
    intro _
    exact Guards.bind (encryptRun_carry cipher chain _) fun _ kept => Guards.pure kept

/-- Decryption hands the carry on, with stealing or without. -/
theorem decrypt_carry (cipher : KeyedCipher m) (stealing : Bool) (chain : Chain)
    (buffer : Bytes) :
    Guards (decrypt cipher stealing chain buffer) fun result =>
      result.1.carry = chain.carry := by
  rw [decrypt]
  split
  · apply Guards.after
    intro _
    apply Guards.after
    intro _
    apply Guards.after
    intro _
    apply Guards.bind (decryptRun_carry cipher chain _)
    intro run same
    apply Guards.after
    intro _
    exact Guards.bind (returnTail_carry cipher run.1 _ _) fun _ kept =>
      Guards.pure (kept.trans same)
  · apply Guards.after
    intro _
    apply Guards.after
    intro _
    exact Guards.bind (decryptRun_carry cipher chain _) fun _ kept => Guards.pure kept

/-- A MAC hands the carry on. -/
theorem mac_carry (cipher : KeyedCipher m) (chain : Chain) (buffer : Bytes) :
    Guards (mac cipher chain buffer) fun result => result.1.carry = chain.carry := by
  rw [mac]
  apply Guards.after
  intro count
  split
  · exact Guards.pure rfl
  · apply Guards.after
    intro whole
    cases cipher.bulk with
    | some bulk => exact Guards.after _ fun _ => Guards.pure rfl
    | none => exact Guards.after _ fun _ => Guards.pure rfl

end BlockChaining

namespace Counter

/-- A counter masks a message piece by piece and leaves it. -/
theorem maskEach_carry (cipher : KeyedCipher m) (chain : Chain) (pieces : List Bytes) :
    Guards (maskEach cipher chain pieces) fun result => result.1.carry = chain.carry := by
  induction pieces generalizing chain with
  | nil => exact Guards.pure rfl
  | cons piece rest inductionHypothesis =>
    rw [maskEach]
    apply Guards.after
    intro _
    apply Guards.after
    intro scratch
    apply Guards.bind
      (inductionHypothesis { chain with counter := successor chain.counter, scratch })
    intro _ kept
    exact Guards.pure kept

/-- Counter mode hands the carry on. -/
theorem transform_carry (cipher : KeyedCipher m) (chain : Chain) (buffer : Bytes) :
    Guards (transform cipher chain buffer) fun result => result.1.carry = chain.carry := by
  rw [transform]
  apply Guards.after
  intro _
  exact Guards.bind (maskEach_carry cipher chain _) fun _ kept => Guards.pure kept

end Counter

end CipherEngine
