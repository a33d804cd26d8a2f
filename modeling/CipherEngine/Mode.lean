/-!
# Modes of operation

A handle works in one mode for its whole life. A mode needs at most one
capability of the cipher below it: a transform of single blocks, or a transform
of whole streams.
-/
namespace CipherEngine

/-- How a handle chains the cipher over a message. -/
inductive Mode where
  /-- Plain copy, without confidentiality. -/
  | none
  /-- Electronic codebook. -/
  | ecb
  /-- Cipher block chaining, optionally with ciphertext stealing or as a MAC. -/
  | cbc
  /-- Full-block cipher feedback. -/
  | cfb
  /-- Output feedback. -/
  | ofb
  /-- Big-endian counter. -/
  | ctr
  /-- The stream transform of a native stream cipher. -/
  | stream
deriving DecidableEq

/-- What a cipher can do, as far as a mode depends on it. -/
inductive Capability where
  /-- Encrypt and decrypt a single block. -/
  | block
  /-- Encrypt and decrypt a stream. -/
  | stream
deriving DecidableEq

namespace Mode

/-- The capability a mode depends on, if any. -/
def needs : Mode → Option Capability
  | .none => Option.none
  | .ecb | .cbc | .cfb | .ofb | .ctr => some .block
  | .stream => some .stream

/-- Whether the mode chains single blocks. -/
def chainsBlocks (mode : Mode) : Bool :=
  mode.needs = some .block

/-- The name a mode goes by in messages. -/
def name : Mode → String
  | .none => "None"
  | .ecb => "Ecb"
  | .cbc => "Cbc"
  | .cfb => "Cfb"
  | .ofb => "Ofb"
  | .ctr => "Ctr"
  | .stream => "Stream"

end Mode

end CipherEngine
