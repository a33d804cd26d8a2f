import CipherEngine.Registry.Operation

/-!
# Questions about an algorithm

Declared lengths are reported by id, without a handle. An unknown or disabled
algorithm, or a declared length that is out of range, is refused. A declared
length of zero means that the registration itself is corrupt, and that ends the
program.
-/
namespace CipherEngine

/-- What may be asked. -/
inductive Query where
  | keyLength
  | blockLength
  | availability
deriving DecidableEq

/-- What may be answered. Lengths are in bytes. -/
inductive Info where
  | keyLength (bytes : Nat)
  | blockLength (bytes : Nat)
  | available
deriving DecidableEq

/-- An answer on one line. -/
def Info.describe : Info → String
  | .keyLength bytes => "KeyLength(" ++ toString bytes ++ ")"
  | .blockLength bytes => "BlockLength(" ++ toString bytes ++ ")"
  | .available => "Available"

/-- A verdict, unless the program ends. -/
abbrev Verdict (α : Type) := Except FatalCondition (Except Refusal α)

variable {m : Type → Type}

/-- The key length of an algorithm: its declared bits as whole bytes. -/
def Algorithm.reportedKeyLength (algorithm : Algorithm m) (id : AlgorithmId) : Verdict Nat :=
  let bits := algorithm.keyBits.toNat
  if bits = 0 then .error (.noKeyLength id)
  else if keyBitsLimit < bits then
    .ok (.error (.configuration (.invalidLength id "key length" bits)))
  else .ok (.ok (bits / 8))

/-- The block length of an algorithm, as declared. -/
def Algorithm.reportedBlockLength (algorithm : Algorithm m) (id : AlgorithmId) : Verdict Nat :=
  let bytes := algorithm.blockLength.toNat
  if bytes = 0 then .error (.noBlockLength id)
  else if blockLengthLimit ≤ bytes then
    .ok (.error (.configuration (.invalidLength id "block length" bytes)))
  else .ok (.ok bytes)

namespace Registry

/-- An algorithm that is registered and may be used. -/
def usable (registry : Registry m) (id : AlgorithmId) : Except Refusal (Algorithm m) :=
  match registry.find? id with
  | none => .error (.configuration (.unknownAlgorithm id))
  | some entry =>
    if entry.disabled then .error (.configuration (.disabledAlgorithm id))
    else .ok entry.algorithm

/-- Asks something of a usable algorithm. What ends the program is logged. -/
def ask [Monad m] {α : Type} (registry : Registry m) (id : AlgorithmId)
    (question : Algorithm m → Verdict α) : Effect m (Verdict α) :=
  let ready := registry.prepare
  match ready.registry.usable id with
  | .error cause => ⟨ready.registry, .ok (.error cause), ready.events⟩
  | .ok algorithm =>
    match question algorithm with
    | .error cause => ⟨ready.registry, .error cause, ready.events ++ [.fatal cause]⟩
    | .ok verdict => ⟨ready.registry, .ok verdict, ready.events⟩

/-- The key length of an algorithm in bytes. -/
def keyLength [Monad m] (registry : Registry m) (id : AlgorithmId) : Effect m (Verdict Nat) :=
  registry.ask id fun algorithm => algorithm.reportedKeyLength id

/-- The block length of an algorithm in bytes. -/
def blockLength [Monad m] (registry : Registry m) (id : AlgorithmId) : Effect m (Verdict Nat) :=
  registry.ask id fun algorithm => algorithm.reportedBlockLength id

/-- Whether an algorithm is registered and may be used. -/
def availability [Monad m] (registry : Registry m) (id : AlgorithmId) :
    Effect m (Verdict Unit) :=
  registry.ask id fun _ => .ok (.ok ())

/-- The answer to a question. -/
def info [Monad m] (registry : Registry m) (id : AlgorithmId) (query : Query) :
    Effect m (Verdict Info) :=
  registry.ask id fun algorithm =>
    match query with
    | .keyLength => (algorithm.reportedKeyLength id).map fun verdict => verdict.map Info.keyLength
    | .blockLength =>
      (algorithm.reportedBlockLength id).map fun verdict => verdict.map Info.blockLength
    | .availability => .ok (.ok .available)

end Registry

end CipherEngine
