import CipherEngine.Proofs.Session.Run
import CipherEngine.Proofs.Specimen

/-!
# Built-in algorithms are permanent

The variants of AES share no name and no object identifier, and they lie below every algorithm
that is registered later. So whatever names an algorithm is registered with, a search for one of
theirs ends at their entry. In a run on a new registry they are installed once, by the first
command that looks at it, and stay, since the registry itself holds a pin on each.
-/
namespace CipherEngine

variable {m : Type → Type}

/-! ## Names and object identifiers -/

/-- An algorithm answers to its name and to its other names, in any case. -/
theorem Algorithm.answersTo_iff {algorithm : Algorithm m} {name : String} :
    algorithm.answersTo name = true ↔
      ∃ own ∈ algorithm.name :: algorithm.aliases, Text.sameIgnoringCase own name = true := by
  rw [answersTo, Bool.or_eq_true, List.any_eq_true, List.exists_mem_cons_iff]

namespace Aes

/-- The id under which a variant is built in. -/
def Variant.id : Variant → AlgorithmId
  | .aes128 => 7
  | .aes192 => 8
  | .aes256 => 9

/-- No two variants go by one name, in any case. -/
theorem names_apart {variant other : Variant} (differ : other ≠ variant) :
    ∀ own ∈ (names variant).1 :: (names variant).2,
      ∀ foreign ∈ (names other).1 :: (names other).2,
        foreign.toList.map Char.toLower ≠ own.toList.map Char.toLower := by
  cases variant <;> cases other <;> first | exact absurd rfl differ | decide +kernel

/-- An object identifier of a variant is found with that variant, and with no other. -/
theorem find?_designation (variant other : Variant) :
    ∀ designation ∈ designations variant,
      (designations other).find? (fun known =>
        Text.sameIgnoringCase known.oid designation.oid) =
        if other = variant then some designation else none := by
  cases variant <;> cases other <;> decide +kernel

/-- A label is taken off an object identifier, and nothing else. -/
theorem stripOidLabel_designation (variant : Variant) :
    ∀ designation ∈ designations variant, ∀ label ∈ ["", "oid.", "OID."],
      stripOidLabel (label ++ designation.oid) = designation.oid := by
  cases variant <;> decide +kernel

end Aes

namespace Registry

variable [Monad m] {registry : Registry m} {entry : Entry m}

/-- The built-in algorithms are the variants of AES. -/
theorem mem_builtins_iff {builtin : AlgorithmId × Algorithm m} :
    builtin ∈ builtins (m := m) ↔
      ∃ variant : Aes.Variant, builtin = (variant.id, Aes.algorithm variant) := by
  simp only [builtins, List.mem_cons, List.not_mem_nil, or_false]
  refine ⟨?_, ?_⟩
  · rintro (rfl | rfl | rfl)
    exacts [⟨.aes128, rfl⟩, ⟨.aes192, rfl⟩, ⟨.aes256, rfl⟩]
  · rintro ⟨_ | _ | _, rfl⟩
    exacts [.inl rfl, .inr (.inl rfl), .inr (.inr rfl)]

namespace Stocked

/-- A built-in algorithm is a variant, and those with smaller ids are others. -/
theorem variant (stocked : registry.Stocked) (present : entry ∈ registry.entries)
    (small : entry.id < firstFreeId) :
    ∃ variant, entry.algorithm = Aes.algorithm variant ∧
      ∀ other ∈ builtins (m := m), other.1 < entry.id →
        ∃ another ≠ variant, other.2 = Aes.algorithm another := by
  obtain ⟨variant, same⟩ := mem_builtins_iff.mp (stocked.reserved entry present small)
  obtain ⟨sameId, sameAlgorithm⟩ := Prod.mk.inj same
  refine ⟨variant, sameAlgorithm, fun other listed less => ?_⟩
  obtain ⟨another, rfl⟩ := mem_builtins_iff.mp listed
  refine ⟨another, ?_, rfl⟩
  rintro rfl
  exact Nat.lt_irrefl _ (sameId ▸ less)

/-- A name of a built-in algorithm is the name of its entry, whoever else goes by it. -/
theorem findName?_eq (stocked : registry.Stocked) (present : entry ∈ registry.entries)
    (small : entry.id < firstFreeId) {own name : String}
    (mine : own ∈ entry.algorithm.name :: entry.algorithm.aliases)
    (like : Text.sameIgnoringCase own name = true) : registry.findName? name = some entry := by
  obtain ⟨variant, same, others⟩ := stocked.variant present small
  refine stocked.find?_builtin (fun algorithm => algorithm.answersTo name) present small
    (Algorithm.answersTo_iff.mpr ⟨own, mine, like⟩) fun other listed less => ?_
  obtain ⟨another, differs, otherSame⟩ := others other listed less
  rw [otherSame, Bool.eq_false_iff, Ne, Algorithm.answersTo_iff]
  rintro ⟨foreign, theirs, alike⟩
  rw [same] at mine
  have folded := (decide_eq_true_iff.mp alike).trans (decide_eq_true_iff.mp like).symm
  exact Aes.names_apart differs own mine foreign theirs folded

/-- An object identifier of a built-in algorithm, labelled or not, designates what is declared,
and no built-in algorithm with a smaller id has it. -/
theorem designation?_eq (stocked : registry.Stocked) (present : entry ∈ registry.entries)
    (small : entry.id < firstFreeId) {designation : Designation} {label : String}
    (mine : designation ∈ entry.algorithm.designations) (allowed : label ∈ ["", "oid.", "OID."]) :
    entry.algorithm.designation? (stripOidLabel (label ++ designation.oid)) = some designation ∧
      ∀ other ∈ builtins (m := m), other.1 < entry.id →
        other.2.designation? (stripOidLabel (label ++ designation.oid)) = none := by
  obtain ⟨variant, same, others⟩ := stocked.variant present small
  rw [same] at mine ⊢
  rw [Aes.stripOidLabel_designation variant designation mine label allowed]
  refine ⟨(Aes.find?_designation variant variant designation mine).trans (if_pos rfl), ?_⟩
  intro other listed less
  obtain ⟨another, differs, otherSame⟩ := others other listed less
  rw [otherSame]
  exact (Aes.find?_designation variant another designation mine).trans (if_neg differs)

end Stocked

/-- Everything that the algorithm of a pin goes by leads to the pin. -/
structure Resolves (registry : Registry m) (pin : Pin m) : Prop where
  listed : pin.id ∈ registry.list.value
  byId : (registry.lookupId pin.id).value = some pin
  byName : ∀ own ∈ pin.algorithm.name :: pin.algorithm.aliases, ∀ name,
    Text.sameIgnoringCase own name = true → (registry.lookupName name).value = some pin
  byOid : ∀ designation ∈ pin.algorithm.designations, ∀ label ∈ ["", "oid.", "OID."],
    (registry.lookupOid (label ++ designation.oid)).value = some pin
  mode : ∀ designation ∈ pin.algorithm.designations, ∀ label ∈ ["", "oid.", "OID."],
    (registry.modeOfOid (label ++ designation.oid)).value = some designation.mode

/-- Where the built-in algorithms are in place, that is so for each of them. -/
theorem Stocked.resolves (stocked : registry.prepare.registry.Stocked)
    (present : entry ∈ registry.prepare.registry.entries) (small : entry.id < firstFreeId) :
    registry.Resolves entry.pin := by
  have found : registry.prepare.registry.find? entry.id = some entry :=
    (find?_eq_some_iff stocked.ascending).mpr ⟨present, rfl⟩
  constructor
  · exact mem_ids_iff.mpr ⟨entry, found⟩
  · rw [lookupId, lookup_value]
    exact congrArg (Option.map Entry.pin) found
  · intro own mine name like
    rw [lookupName, lookup_value, stocked.findName?_eq present small mine like]
    rfl
  · intro designation mine label allowed
    obtain ⟨holds, first⟩ := stocked.designation?_eq present small mine allowed
    rw [lookupOid, lookup_value]
    refine congrArg (Option.map Entry.pin) (stocked.find?_builtin
      (fun algorithm => (algorithm.designation? _).isSome) present small ?_ ?_)
    · rw [holds]
      rfl
    · intro other listed less
      rw [first other listed less]
      rfl
  · intro designation mine label allowed
    obtain ⟨holds, first⟩ := stocked.designation?_eq present small mine allowed
    refine stocked.findSome?_builtin
      (fun algorithm => (algorithm.designation? _).map Designation.mode) present small ?_ ?_
    · rw [holds]
      rfl
    · intro other listed less
      rw [first other listed less]
      rfl

end Registry

namespace Session

open Registry

variable [Monad m] [LawfulMonad m] {history : List (Command m × Step m)} {session : Session m}

/-- Once a command has looked at it, the registry is prepared. -/
theorem Run.prepared_of_looks {first : Session m} (run : first.Run history session)
    (looked : ∃ performed ∈ history, performed.1.looks = true) :
    session.registry.prepared = true := by
  induction run with
  | begun => exact absurd looked (by simp)
  | @performed history session command step _ returned inductionHypothesis =>
    have follows := returned _ (perform_follows session command)
    obtain ⟨performed, member, looks⟩ := looked
    rcases List.mem_append.mp member with earlier | last
    · exact follows.course.precedes.prepared (inductionHypothesis ⟨performed, earlier, looks⟩)
    · obtain rfl := List.mem_singleton.mp last
      exact follows.prepared looks

/-- In every run on a new registry the built-in algorithms are installed once, when a command
first looks at it. Each of them is found under its id, by its names in any case, and by its
object identifiers, which give their modes, and once it is there this is one entry for good. -/
theorem builtins_permanent (run : Run { registry := .fresh } history session) :
    (log history).count .builtinsRegistered ≤ 1 ∧
    ((∃ performed ∈ history, performed.1.looks = true) →
      (log history).count .builtinsRegistered = 1) ∧
    ∀ builtin ∈ builtins (m := m), ∃ pin : Pin m, pin.id = builtin.1 ∧
      pin.algorithm = builtin.2 ∧ session.registry.Resolves pin ∧
      ((∃ performed ∈ history, performed.1.looks = true) →
        ∀ later last, session.Run later last → last.registry.Resolves pin) := by
  have counted : (log history).count .builtinsRegistered + 0 = session.registry.prepared.toNat :=
    run.course.count_installed
  rw [Nat.add_zero] at counted
  refine ⟨?_, fun looked => ?_, fun builtin listed => ?_⟩
  · rw [counted]
    exact Bool.toNat_le session.registry.prepared
  · rw [counted, run.prepared_of_looks looked]
    rfl
  · have small := builtin_lt listed
    obtain ⟨entry, found, same⟩ := run.stocked.find? listed
    obtain ⟨present, sameId⟩ := mem_of_find? found
    refine ⟨entry.pin, sameId, same, run.stocked.resolves present (sameId ▸ small), ?_⟩
    intro looked later last continued
    have whole := run.trans continued
    obtain ⟨other, otherFound, _⟩ := whole.stocked.find? listed
    obtain ⟨otherPresent, otherId⟩ := mem_of_find? otherFound
    have resolves := whole.stocked.resolves otherPresent (otherId ▸ small)
    have prepared := run.prepared_of_looks looked
    rw [prepare_of_prepared prepared] at found
    rw [prepare_of_prepared (continued.course.precedes.prepared prepared)] at otherFound
    have one := (run.entry_once (.inl rfl) continued found otherFound).1
    rwa [one] at resolves

/-- The first command registers an algorithm under names and an object identifier of AES; pins
and a handle on the real ones are given back, and they are still what is found. -/
theorem builtins_permanent_impostor :
    let impostor : Algorithm Id :=
      { Specimen.algorithm with
        name := "aes", aliases := ["AES-256"]
        designations := [⟨"2.16.840.1.101.3.4.1.2", .ctr⟩] }
    let commands : List (Command Id) :=
      [.register impostor (some "impostor"), .lookup (.name "Aes-256") none,
        .lookup (.oid "OID.2.16.840.1.101.3.4.1.2") (some "aes"), .dropPin "aes",
        .openHandle "handle" (.id 8) .cbc {}, .close "handle"]
    let first : Session Id := { registry := .fresh }
    let history := first.recorded commands
    let last := commands.foldl after first
    (log history).count .builtinsRegistered = 1 ∧
      (∃ pin : Pin Id, pin.id = 9 ∧ last.registry.Resolves pin) ∧
      last.registry.list.value = [7, 8, 9, 1024] := by
  intro impostor commands first history last
  have run : first.Run history last := Run.ofCommands first commands
  have looked : ∃ performed ∈ history, performed.1.looks = true :=
    ⟨_, List.mem_cons_self, rfl⟩
  obtain ⟨_, once, found⟩ := builtins_permanent run
  obtain ⟨pin, id, _, resolves, _⟩ := found (9, Aes.algorithm .aes256) (by simp [builtins])
  exact ⟨once looked, ⟨pin, id, resolves⟩, by decide +kernel⟩

end Session

end CipherEngine
