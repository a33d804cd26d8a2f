import CipherEngine.Proofs.Chaining.Acceleration
import CipherEngine.Proofs.Handle.Indistinct
import CipherEngine.Proofs.Specimen

/-!
# Bulk routines do not show

One handle is on a primitive with bulk routines, another on the same primitive without
them. If the routines honour their contract, the handles agree before and after every
request and give the same answers, down to the bytes they write. Of what they hold, only
the previous chaining value at a block boundary and the temporary block may differ.
-/
namespace CipherEngine

variable {m : Type → Type}

/-- The algorithm on a primitive without bulk routines. -/
def Algorithm.withoutBulk (algorithm : Algorithm m) : Algorithm m :=
  { algorithm with primitive := { algorithm.primitive with bulk := none } }

/-- Every call of the primitive has one value, which depends on its arguments alone. -/
structure Primitive.Pure [Functor m] (primitive : Primitive m) : Prop where
  setKey : ∀ context key, Settled (primitive.setKey context key)
  encrypt : ∀ block, primitive.block = some block →
    ∀ context bytes, Settled (block.encrypt context bytes)
  decrypt : ∀ block, primitive.block = some block →
    ∀ context bytes, Settled (block.decrypt context bytes)
  encryptStream : ∀ stream, primitive.stream = some stream →
    ∀ context buffer, Settled (stream.encrypt context buffer)
  decryptStream : ∀ stream, primitive.stream = some stream →
    ∀ context buffer, Settled (stream.decrypt context buffer)

variable [Monad m] [LawfulMonad m] {functions : BlockFunctions}

/-- An algorithm on a pure primitive whose bulk routines honour their contract matches the
one without them. -/
theorem Algorithm.Matches.withoutBulk {algorithm : Algorithm m} (pure : algorithm.primitive.Pure)
    (computes : algorithm.Computes functions) :
    algorithm.Matches (valued m m) algorithm.withoutBulk := by
  refine ⟨rfl, rfl, fun context key => (pure.setKey context key).relates, ?_, ?_⟩
  · cases available : algorithm.primitive.stream with
    | none =>
      simp only [Algorithm.withoutBulk, available]
      exact .none
    | some stream =>
      simp only [Algorithm.withoutBulk, available]
      exact .some
        ⟨fun context buffer => (pure.encryptStream stream available context buffer).relates,
          fun context buffer => (pure.decryptStream stream available context buffer).relates⟩
  · intro positive
    cases available : algorithm.primitive.block with
    | none =>
      simp only [Algorithm.withoutBulk, available]
      exact .none
    | some block =>
      simp only [Algorithm.withoutBulk, available]
      refine .some fun context sized counts rests => ?_
      have blocks : KeyedCipher.MatchesBlocks (valued m m)
          ⟨block, algorithm.primitive.bulk, context⟩ ⟨block, none, context⟩ :=
        ⟨fun bytes => (pure.encrypt block available context bytes).relates,
          fun bytes => (pure.decrypt block available context bytes).relates⟩
      exact KeyedCipher.Matches.withoutBulk (computes block available context sized) positive
        blocks counts rests

namespace LiveHandle

/-- The same reply and records, and handles that agree on all but what no request reads. -/
def SameStep (outcome otherOutcome : Outcome m) : Prop :=
  outcome.reply = otherOutcome.reply ∧ outcome.events = otherOutcome.events ∧
    ∃ next otherNext, outcome.handle = .live next ∧ otherOutcome.handle = .live otherNext ∧
      next.Agrees True otherNext

/-- Handles that agree, one of them on the algorithm of the other without its bulk routines,
are not told apart by any requests: at every step they give the same reply, write the
same buffer, log the same records, and agree again. -/
theorem bulk_invisible {handle plain : LiveHandle m} (reachable : handle.Reachable)
    (plainReachable : plain.Reachable)
    (algorithm : plain.pin.algorithm = handle.pin.algorithm.withoutBulk)
    (agrees : handle.Agrees True plain) (pure : handle.primitive.Pure)
    (computes : handle.pin.algorithm.Computes functions) (requests : List Request) :
    ∃ last outcomes plainLast plainOutcomes,
      Yields ((Handle.live handle).respondAll requests) (last, outcomes) ∧
      Yields ((Handle.live plain).respondAll requests) (plainLast, plainOutcomes) ∧
      List.Forall₂ SameStep outcomes plainOutcomes := by
  have indistinct : handle.Indistinct (valued m m) True plain := by
    refine ⟨agrees, ?_, reachable.fitted, plainReachable.fitted, reachable.sound.boundary,
      fun _ => trivial⟩
    rw [algorithm]
    exact .withoutBulk pure computes
  obtain ⟨⟨last, outcomes⟩, ⟨plainLast, plainOutcomes⟩, yielded, plainYielded, same⟩ :=
    valued_relates.mp (indistinct.respondAll requests)
  refine ⟨last, outcomes, plainLast, plainOutcomes, yielded, plainYielded, same.imp ?_⟩
  rintro outcome plainOutcome ⟨reply, events, next, plainNext, left, plainLeft, later⟩
  exact ⟨reply, events, next, plainNext, left, plainLeft, later.toAgrees⟩

/-- The specimen and the same without its bulk routines, in cipher feedback. -/
theorem bulk_invisible_specimen :
    ∃ last outcomes plainLast plainOutcomes,
      Yields ((Handle.live (Specimen.opened .cfb { syncEnabled := true })).respondAll
        Specimen.conversation) (last, outcomes) ∧
      Yields ((Handle.live (LiveHandle.unkeyed ⟨0, firstFreeId, Specimen.algorithm.withoutBulk⟩
        Specimen.arena .cfb { syncEnabled := true })).respondAll
        Specimen.conversation) (plainLast, plainOutcomes) ∧
      List.Forall₂ SameStep outcomes plainOutcomes := by
  have pure : Specimen.algorithm.primitive.Pure := by
    constructor
    · exact fun _ _ => ⟨_, Yields.pure _⟩
    · rintro _ ⟨⟩ _ _
      exact ⟨_, Yields.pure _⟩
    · rintro _ ⟨⟩ _ _
      exact ⟨_, Yields.pure _⟩
    · exact fun _ given => nomatch given
    · exact fun _ given => nomatch given
  exact bulk_invisible (.opened (Specimen.openOn_gives rfl rfl))
    (.opened (Specimen.openOn_registered rfl rfl rfl rfl rfl)) rfl
    ⟨rfl, rfl, rfl, rfl, rfl, fun _ _ => rfl⟩ pure Specimen.computes _

end LiveHandle

end CipherEngine
