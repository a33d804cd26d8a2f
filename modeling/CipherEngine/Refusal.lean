import CipherEngine.Mode
import CipherEngine.Fault

/-!
# Refusals

A refusal is a value: it names its cause and the numbers that belong to it, and
one function per type gives the text. Causes nest the way the parts of the
engine do: a cipher refuses a key, storage refuses an arena, and the engine
wraps both. Conditions that end the program are a type of their own, since no
operation returns them.
-/
namespace CipherEngine

/-- The number under which an algorithm is registered. -/
abbrev AlgorithmId := Nat

/-- Why a cipher did not take a key. -/
inductive KeyRefusal where
  /-- The key has the wrong size. -/
  | invalidLength (expected actual : Nat)
  /-- The key is on the cipher's list of weak keys. -/
  | weak
  /-- Any other refusal, with the cipher's reason. -/
  | rejected (reason : String)
deriving DecidableEq

/-- Why a handle got no memory. -/
inductive StorageRefusal where
  /-- The alignment is no power of two, or larger than a page. -/
  | invalidAlignment (alignment : Nat)
  /-- The slots together need more than the address space. -/
  | sizeOverflow
  /-- The system refused so many bytes. -/
  | allocation (size : Nat)
  /-- The system refused to map pages. -/
  | map
  /-- The system refused to lock the pages. -/
  | lock
deriving DecidableEq

/-- A choice of algorithm, mode or options that cannot work. -/
inductive BadConfiguration where
  | unknownAlgorithm (id : AlgorithmId)
  | disabledAlgorithm (id : AlgorithmId)
  | unsupportedMode (id : AlgorithmId) (mode : Mode)
  | conflictingOptions
  /-- A declared length, named in words, that cannot serve. -/
  | invalidLength (id : AlgorithmId) (what : String) (value : Nat)
  | noKey
deriving DecidableEq

/-- A buffer or value that does not fit the handle. -/
inductive BadArgument where
  | misaligned (length blockLength : Nat)
  | shortOutput (required actual : Nat)
  | counterLength (expected actual : Nat)
  | keyRefused (cause : KeyRefusal)
deriving DecidableEq

/-- A failure of the surroundings. -/
inductive BadSurroundings where
  | allocation (cause : StorageRefusal)
  | idsExhausted
deriving DecidableEq

/-- Every refusal an operation may return. -/
inductive Refusal where
  | configuration (cause : BadConfiguration)
  | argument (cause : BadArgument)
  | operational (cause : BadSurroundings)
deriving DecidableEq

/-- A condition that ends the program. -/
inductive FatalCondition where
  /-- A closed handle was used. -/
  | closedHandle
  /-- A registered algorithm declares no key. -/
  | noKeyLength (id : AlgorithmId)
  /-- A registered algorithm declares no block. -/
  | noBlockLength (id : AlgorithmId)
deriving DecidableEq

/-- How a computation ends without an answer. -/
inductive Halt where
  | fatal (cause : FatalCondition)
  | fault (cause : Fault)
deriving DecidableEq

/-- The text of a refused key. -/
def KeyRefusal.message : KeyRefusal → String
  | .invalidLength expected actual =>
    "invalid key length: expected " ++ toString expected ++ " bytes, got " ++ toString actual
  | .weak => "weak key"
  | .rejected reason => "key rejected: " ++ reason

/-- The text of refused memory. -/
def StorageRefusal.message : StorageRefusal → String
  | .invalidAlignment alignment => "invalid alignment: " ++ toString alignment
  | .sizeOverflow => "arena size overflows"
  | .allocation size => "allocation of " ++ toString size ++ " bytes failed"
  | .map => "mmap failed"
  | .lock => "mlock failed"

/-- The text of a refused choice. -/
def BadConfiguration.message : BadConfiguration → String
  | .unknownAlgorithm id => "unknown algorithm " ++ toString id
  | .disabledAlgorithm id => "algorithm " ++ toString id ++ " is disabled"
  | .unsupportedMode id mode =>
    "algorithm " ++ toString id ++ " does not support " ++ mode.name ++ " mode"
  | .conflictingOptions => "ciphertext stealing and CBC-MAC are mutually exclusive"
  | .invalidLength id what value =>
    "algorithm " ++ toString id ++ " declares an invalid " ++ what ++ " of " ++ toString value
  | .noKey => "handle has no key"

/-- The text of a refused argument. -/
def BadArgument.message : BadArgument → String
  | .misaligned length blockLength =>
    "length " ++ toString length ++ " is not a multiple of the block length " ++
      toString blockLength
  | .shortOutput required actual =>
    "output buffer too short: need " ++ toString required ++ " bytes, got " ++ toString actual
  | .counterLength expected actual =>
    "counter must be " ++ toString expected ++ " bytes, got " ++ toString actual
  | .keyRefused cause => "key rejected: " ++ cause.message

/-- The text of a failure of the surroundings. -/
def BadSurroundings.message : BadSurroundings → String
  | .allocation cause => "handle allocation failed: " ++ cause.message
  | .idsExhausted => "algorithm id space exhausted"

/-- The text of a refusal, led by its area. -/
def Refusal.message : Refusal → String
  | .configuration cause => "configuration error: " ++ cause.message
  | .argument cause => "argument error: " ++ cause.message
  | .operational cause => "operational error: " ++ cause.message

/-- The text of a condition that ends the program. -/
def FatalCondition.message : FatalCondition → String
  | .closedHandle => "operation on a closed cipher handle"
  | .noKeyLength id => "algorithm " ++ toString id ++ " declares a zero key length"
  | .noBlockLength id => "algorithm " ++ toString id ++ " declares a zero block length"

/-- A refused key, as the engine returns it. -/
def KeyRefusal.toRefusal (cause : KeyRefusal) : Refusal :=
  .argument (.keyRefused cause)

/-- Refused memory, as the engine returns it. -/
def StorageRefusal.toRefusal (cause : StorageRefusal) : Refusal :=
  .operational (.allocation cause)

end CipherEngine
