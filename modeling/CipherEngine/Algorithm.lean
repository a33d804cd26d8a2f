import CipherEngine.Primitive
import CipherEngine.Text.Quoted
import CipherEngine.Text.Record

/-!
# Described algorithms

An algorithm is a primitive together with what is said about it: a name and
other names, object identifiers with the modes they imply, and declared sizes.
The sizes are only declared here; queries and handles judge them later.
-/
namespace CipherEngine

/-- An object identifier, in dotted decimals, and the mode it stands for. -/
structure Designation where
  oid : String
  mode : Mode
deriving DecidableEq

/-- A primitive with its names and its declared sizes. -/
structure Algorithm (m : Type → Type) where
  name : String
  aliases : List String := []
  designations : List Designation := []
  /-- Declared length of a key in bits. -/
  keyBits : UInt64
  /-- Declared length of a block in bytes. -/
  blockLength : UInt64
  /-- Bytes of one context. -/
  contextSize : UInt64
  /-- Alignment of a context in bytes. -/
  contextAlignment : UInt64 := 8
  primitive : Primitive m

/-- The largest declared key length that is reported, in bits. -/
def keyBitsLimit : Nat := 512

/-- Declared block lengths from here on are not reported, in bytes. -/
def blockLengthLimit : Nat := 10000

/-- A designation on one line. -/
def Designation.describe (designation : Designation) : String :=
  Text.record "OidSpec"
    [⟨"oid", Text.quoted designation.oid⟩, ⟨"mode", designation.mode.name⟩]

namespace Algorithm

variable {m : Type → Type}

/-- Whether the algorithm goes by a name, whatever the case of its letters. -/
def answersTo (algorithm : Algorithm m) (name : String) : Bool :=
  Text.sameIgnoringCase algorithm.name name ||
    algorithm.aliases.any fun other => Text.sameIgnoringCase other name

/-- The first designation with an object identifier. -/
def designation? (algorithm : Algorithm m) (oid : String) : Option Designation :=
  algorithm.designations.find? fun designation => Text.sameIgnoringCase designation.oid oid

/-- The algorithm on one line, without its primitive. -/
def describe (algorithm : Algorithm m) : String :=
  Text.openRecord "PrimitiveSpec"
    [⟨"name", Text.quoted algorithm.name⟩,
      ⟨"aliases", Text.sequence (algorithm.aliases.map Text.quoted)⟩,
      ⟨"oids", Text.sequence (algorithm.designations.map Designation.describe)⟩,
      ⟨"key_bits", toString algorithm.keyBits⟩,
      ⟨"block_len", toString algorithm.blockLength⟩,
      ⟨"context_size", toString algorithm.contextSize⟩,
      ⟨"context_align", toString algorithm.contextAlignment⟩]

end Algorithm

end CipherEngine
