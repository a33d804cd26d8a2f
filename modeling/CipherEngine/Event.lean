import CipherEngine.Refusal

/-!
# Log records

What the engine logs, as values. Every record says which algorithm it is about,
or how long something is; none holds a key, a chaining value or message bytes.
-/
namespace CipherEngine

/-- How much attention a record asks for. -/
inductive Level where
  | debug
  | warn
  | error
deriving DecidableEq

/-- Something that was logged. -/
inductive Event where
  | builtinsRegistered
  | registered (id : AlgorithmId) (name : String)
  | releasing (id : AlgorithmId)
  | removed (id : AlgorithmId) (name : String)
  | disabled (id : AlgorithmId)
  | disableUnknown (id : AlgorithmId)
  | openedPlain (id : AlgorithmId)
  | opened (id : AlgorithmId) (name : String) (mode : Mode)
  | closed (id : AlgorithmId)
  | keyRefused (id : AlgorithmId) (cause : KeyRefusal)
  | ivMismatch (length blockLength : Nat)
  | fatal (cause : FatalCondition)
deriving DecidableEq

namespace Event

/-- The level of a record. -/
def level : Event → Level
  | .openedPlain _ | .ivMismatch _ _ => .warn
  | .fatal _ => .error
  | _ => .debug

/-- The text of a record. -/
def message : Event → String
  | .builtinsRegistered => "built-in algorithms registered"
  | .registered id name => "registered algorithm " ++ toString id ++ " (" ++ name ++ ")"
  | .releasing id => "releasing pin on algorithm " ++ toString id
  | .removed id name => "algorithm " ++ toString id ++ " (" ++ name ++ ") removed from registry"
  | .disabled id => "algorithm " ++ toString id ++ " disabled"
  | .disableUnknown id => "disable: unknown algorithm " ++ toString id
  | .openedPlain id =>
    "algorithm " ++ toString id ++ " opened in None mode, data is not encrypted"
  | .opened id name mode =>
    "opened " ++ name ++ " (" ++ toString id ++ ") in " ++ mode.name ++ " mode"
  | .closed id => "closed handle for algorithm " ++ toString id
  | .keyRefused id cause =>
    "algorithm " ++ toString id ++ " rejected key: " ++ cause.message
  | .ivMismatch length blockLength =>
    "IV length " ++ toString length ++ " does not match block length " ++ toString blockLength
  | .fatal cause => "fatal: " ++ cause.message

/-- The record as it is written: its level, a space, its text. -/
def written (event : Event) : String :=
  (match event.level with
    | .debug => "DEBUG "
    | .warn => "WARN "
    | .error => "ERROR ") ++ event.message

end Event

end CipherEngine
