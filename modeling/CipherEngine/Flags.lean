import CipherEngine.Text.Record

/-!
# Handle options

Four independent switches chosen when a handle is opened. Ciphertext stealing
and MAC output exclude each other; the two may be switched later, so the pair is
checked when a handle is opened and again at every switch.
-/
namespace CipherEngine

/-- The options of a handle. All are off by default. -/
structure Flags where
  /-- Keep the handle's memory in locked pages. -/
  secure : Bool := false
  /-- Allow feedback resynchronisation. -/
  syncEnabled : Bool := false
  /-- Block chaining with ciphertext stealing. -/
  stealing : Bool := false
  /-- Block chaining that yields only the final chained block. -/
  mac : Bool := false
deriving DecidableEq

namespace Flags

/-- A single change to a set of options. -/
inductive Change where
  | secure
  | enableSync
  | stealing (enable : Bool)
  | mac (enable : Bool)

/-- The options after a change. Nothing is checked here. -/
def change (flags : Flags) : Change → Flags
  | .secure => { flags with secure := true }
  | .enableSync => { flags with syncEnabled := true }
  | .stealing enable => { flags with stealing := enable }
  | .mac enable => { flags with mac := enable }

/-- Stealing and MAC output are not both on. -/
def consistent (flags : Flags) : Bool :=
  !(flags.stealing && flags.mac)

/-- The options on one line. -/
def describe (flags : Flags) : String :=
  Text.record "HandleFlags"
    [⟨"secure", Text.truth flags.secure⟩, ⟨"enable_sync", Text.truth flags.syncEnabled⟩,
      ⟨"cbc_cts", Text.truth flags.stealing⟩, ⟨"cbc_mac", Text.truth flags.mac⟩]

end Flags

end CipherEngine
