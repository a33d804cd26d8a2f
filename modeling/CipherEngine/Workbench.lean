import CipherEngine.Session
import CipherEngine.Standin.Kind
import CipherEngine.Trial

/-!
# The workbench

A session in which algorithms are described rather than given: by a kind of
stand-in, or as a copy of an algorithm that is already pinned, with sizes that
may be replaced. The calls that a stand-in counts or records can be read by the
name under which it was last registered, whatever has become of the pin since.
-/
namespace CipherEngine

open Standin

/-- Where the primitive of a described algorithm comes from. -/
inductive Source where
  | kind (kind : Kind)
  /-- The same primitive, with the sizes, as the pin in a place. -/
  | like (pin : String)
deriving DecidableEq

/-- An algorithm in words. What is absent is taken from the source. -/
structure Description where
  source : Source
  name : String
  aliases : List String := []
  designations : List Designation := []
  keyBits : Option UInt64 := none
  blockLength : Option UInt64 := none
  contextSize : Option UInt64 := none
  contextAlignment : Option UInt64 := none
deriving DecidableEq

/-- The alignment of a context where nothing else is said. -/
def commonAlignment : UInt64 := 8

/-- A primitive with the sizes that go with it. -/
structure Part where
  primitive : Primitive Bench
  sizes : Sizes
  alignment : UInt64
  instrument : Instrument

/-- A new part of a kind. -/
def Part.ofKind (kind : Kind) : Bench Part := do
  let (primitive, instrument) ← kind.make
  pure ⟨primitive, kind.sizes, commonAlignment, instrument⟩

/-- The part that an algorithm has. Its calls cannot be seen. -/
def Part.ofAlgorithm (algorithm : Algorithm Bench) : Part :=
  ⟨algorithm.primitive, ⟨algorithm.keyBits, algorithm.blockLength, algorithm.contextSize⟩,
    algorithm.contextAlignment, .unseen⟩

/-- The described algorithm, made with a part. -/
def Description.toAlgorithm (description : Description) (part : Part) : Algorithm Bench where
  name := description.name
  aliases := description.aliases
  designations := description.designations
  keyBits := description.keyBits.getD part.sizes.keyBits
  blockLength := description.blockLength.getD part.sizes.blockLength
  contextSize := description.contextSize.getD part.sizes.contextSize
  contextAlignment := description.contextAlignment.getD part.alignment
  primitive := part.primitive

/-- A session on the bench, and how the calls of its primitives can be seen. -/
structure Workbench where
  session : Session Bench
  instruments : Shelf Instrument := []

/-- What may be done at the workbench. -/
inductive Action where
  | register (description : Description) (keepAs : Option String)
  | counts (place : String)
  | clearCounts (place : String)
  | calls (place : String)
  | command (command : Command Bench)

/-- What an action shows. -/
inductive Display where
  | answer (answer : Answer Bench)
  | counts (keys blocks bulks : Nat)
  | calls (calls : List Call)

/-- What an action leaves and says. -/
structure Workbench.Step where
  workbench : Workbench
  display : Display
  events : List Event := []

namespace Workbench

/-- An action that does nothing. -/
def skip (workbench : Workbench) : Step := ⟨workbench, .answer .skipped, []⟩

/-- The part that a source gives, unless it names an empty place. -/
def part? (workbench : Workbench) : Source → Bench (Option Part)
  | .kind kind => do
    let part ← Part.ofKind kind
    pure (some part)
  | .like place => pure ((workbench.session.pins.at? place).map fun pin =>
      Part.ofAlgorithm pin.algorithm)

/-- Registers a described algorithm. -/
def register (workbench : Workbench) (description : Description) (keepAs : Option String) :
    Bench Step := do
  match ← workbench.part? description.source with
  | none => pure workbench.skip
  | some part => do
    let step := workbench.session.register (description.toAlgorithm part) keepAs
    let instruments := match keepAs with
      | none => workbench.instruments
      | some place => workbench.instruments.put place part.instrument
    pure ⟨⟨step.session, instruments⟩, .answer step.answer, step.events⟩

/-- Carries out an action. -/
def perform (workbench : Workbench) : Action → Bench Step
  | .register description keepAs => workbench.register description keepAs
  | .counts place =>
    match workbench.instruments.at? place with
    | some (.counted number) => do
      let tally ← Bench.tally number
      pure ⟨workbench, .counts tally.keys tally.blocks tally.bulks, []⟩
    | _ => pure workbench.skip
  | .clearCounts place =>
    match workbench.instruments.at? place with
    | some (.counted number) => do
      Bench.note number fun tally => { tally with keys := 0, blocks := 0, bulks := 0 }
      pure ⟨workbench, .answer (.done (.ok ())), []⟩
    | _ => pure workbench.skip
  | .calls place =>
    match workbench.instruments.at? place with
    | some (.recorded number) => do
      let tally ← Bench.tally number
      Bench.note number fun tally => { tally with calls := [] }
      pure ⟨workbench, .calls tally.calls.reverse, []⟩
    | _ => pure workbench.skip
  | .command command => do
    let step ← workbench.session.perform command
    pure ⟨{ workbench with session := step.session }, .answer step.answer, step.events⟩

/-- Whether an action has ended the program. -/
def Step.halts (step : Step) : Bool :=
  match step.display with
  | .answer (.halted _) => true
  | _ => false

/-- Carries out actions in order, up to the first that ends the program. -/
def performAll (workbench : Workbench) : List Action → Bench (List Step)
  | [] => pure []
  | action :: rest => do
    let step ← workbench.perform action
    if step.halts then pure [step]
    else do
      let others ← performAll step.workbench rest
      pure (step :: others)

end Workbench

end CipherEngine
