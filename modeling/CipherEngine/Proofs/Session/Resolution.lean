import CipherEngine.Proofs.Session.Builtins
import Mathlib

/-!
# One table, four searches

A name and an object identifier are looked up, a mode is read off an object identifier, and a
text is resolved to an id, each by a walk over the entries with a test of its own. Entries ascend
by id, so what a walk meets first has the smallest id of all that match. The mode is read off the
entry that the object identifier is looked up to, and the id is that of the same two lookups.
Algorithms may share names and object identifiers with each other, and letters have no case.
-/
namespace CipherEngine

/-! ## Texts -/

/-- Two letters that differ in case at most: one is the small form of the other. No other
characters than the letters A to Z have a small form. -/
def SameLetter (letter other : Char) : Prop :=
  other = letter ∨ other = letter.toLower ∨ letter = other.toLower

/-- A text in which the case of letters has been changed. -/
def Recased (text other : String) : Prop :=
  List.Forall₂ SameLetter text.toList other.toList

/-- The small form does not depend on the case. -/
theorem SameLetter.toLower_eq {letter other : Char} (same : SameLetter letter other) :
    other.toLower = letter.toLower := by
  rcases same with rfl | rfl | rfl
  · rfl
  · exact Char.toLower_toLower_eq_toLower letter
  · exact (Char.toLower_toLower_eq_toLower other).symm

/-- A text is like another in any case, or like neither form of it. -/
theorem Recased.sameIgnoringCase {text other : String} (recased : Recased text other)
    (own : String) : Text.sameIgnoringCase own other = Text.sameIgnoringCase own text := by
  have folded : ∀ {letters others : List Char}, List.Forall₂ SameLetter letters others →
      others.map Char.toLower = letters.map Char.toLower := by
    intro letters others like
    induction like with
    | nil => rfl
    | cons same _ inductionHypothesis =>
      rw [List.map_cons, List.map_cons, same.toLower_eq, inductionHypothesis]
  rw [Text.sameIgnoringCase, folded recased, Text.sameIgnoringCase]

/-- What an object identifier is without its label, if it has one. Only one label is taken off,
and only in these two forms. -/
inductive Unlabelled : (oid rest : String) → Prop where
  | small (rest : String) : Unlabelled ("oid." ++ rest) rest
  | capital (rest : String) : Unlabelled ("OID." ++ rest) rest
  | bare {oid : String} :
    (∀ rest, oid ≠ "oid." ++ rest) → (∀ rest, oid ≠ "OID." ++ rest) → Unlabelled oid oid

/-- Every object identifier is one text without its label. -/
theorem unlabelled_iff {oid rest : String} : Unlabelled oid rest ↔ stripOidLabel oid = rest := by
  have labelled (label : String) (letters : List Char)
      (same : oid.toList = label.toList ++ letters) : oid = label ++ String.ofList letters := by
    rw [← String.toList_inj, same, String.toList_append, String.toList_ofList]
  constructor
  · rintro (rest | rest | ⟨notSmall, notCapital⟩)
    · simp [stripOidLabel]
    · simp [stripOidLabel]
    · unfold stripOidLabel
      split
      · next letters same => exact absurd (labelled "oid." letters same) (notSmall _)
      · next letters same => exact absurd (labelled "OID." letters same) (notCapital _)
      · rfl
  · rintro rfl
    unfold stripOidLabel
    split
    · next letters same =>
      obtain rfl := labelled "oid." letters same
      exact .small _
    · next letters same =>
      obtain rfl := labelled "OID." letters same
      exact .capital _
    · next notSmall notCapital =>
      refine .bare (fun rest same => ?_) fun rest same => ?_
      · exact notSmall rest.toList (by simp [same])
      · exact notCapital rest.toList (by simp [same])

/-! ## Walks over the entries -/

variable {m : Type → Type}

/-- In an ascending list the first that matches has the smallest id of all that match. -/
theorem find?_eq_some_iff_least {entries : List (Entry m)}
    (ascending : entries.Pairwise fun entry later => entry.id < later.id)
    (answers : Entry m → Bool) {entry : Entry m} :
    entries.find? answers = some entry ↔ entry ∈ entries ∧ answers entry = true ∧
      ∀ other ∈ entries, answers other = true → entry.id ≤ other.id := by
  induction entries with
  | nil => simp
  | cons first rest inductionHypothesis =>
    obtain ⟨least, restAscending⟩ := List.pairwise_cons.mp ascending
    by_cases holds : answers first = true
    · rw [List.find?_cons_of_pos holds]
      constructor
      · rintro ⟨⟩
        refine ⟨List.mem_cons_self, holds, List.forall_mem_cons.mpr ⟨fun _ => Nat.le_refl _, ?_⟩⟩
        exact fun other present _ => Nat.le_of_lt (least other present)
      · rintro ⟨present, _, smallest⟩
        rcases List.mem_cons.mp present with rfl | later
        · rfl
        · exact absurd (smallest first List.mem_cons_self holds)
            (Nat.not_le_of_lt (least entry later))
    · rw [List.find?_cons_of_neg holds, inductionHypothesis restAscending]
      -- The first entry does not match, so it is neither found nor in the way.
      have skipped : answers entry = true → (entry ∈ first :: rest ↔ entry ∈ rest) := by
        intro matched
        refine ⟨fun present => (List.mem_cons.mp present).resolve_left ?_, List.mem_cons_of_mem _⟩
        rintro rfl
        exact holds matched
      constructor
      · rintro ⟨present, matched, smallest⟩
        exact ⟨(skipped matched).mpr present, matched,
          List.forall_mem_cons.mpr ⟨fun firstHolds => absurd firstHolds holds, smallest⟩⟩
      · rintro ⟨present, matched, smallest⟩
        exact ⟨(skipped matched).mp present, matched, (List.forall_mem_cons.mp smallest).2⟩

/-- The first thing that a view shows is what it shows of the first value that shows any. -/
theorem findSome?_eq_bind_find? {α β : Type} (values : List α) (view : α → Option β) :
    values.findSome? view = (values.find? fun value => (view value).isSome).bind view := by
  induction values with
  | nil => rfl
  | cons first rest inductionHypothesis =>
    rw [List.findSome?_cons, List.find?_cons]
    cases shown : view first with
    | none => exact inductionHypothesis
    | some value => exact shown.symm

namespace Algorithm

variable {algorithm : Algorithm m}

/-- The algorithm has an object identifier, in any case. -/
def Designates (algorithm : Algorithm m) (oid : String) : Prop :=
  ∃ designation ∈ algorithm.designations, Text.sameIgnoringCase designation.oid oid = true

/-- The algorithm goes by a name, in any case. -/
def GoesBy (algorithm : Algorithm m) (name : String) : Prop :=
  ∃ own ∈ algorithm.name :: algorithm.aliases, Text.sameIgnoringCase own name = true

/-- The first of the designations with an object identifier, in any case, is for a mode. -/
def FirstDesignates (algorithm : Algorithm m) (oid : String) (mode : Mode) : Prop :=
  ∃ before designation after, algorithm.designations = before ++ designation :: after ∧
    Text.sameIgnoringCase designation.oid oid = true ∧ designation.mode = mode ∧
    ∀ earlier ∈ before, Text.sameIgnoringCase earlier.oid oid = false

/-- A search for a designation finds one exactly if the algorithm has one by that identifier. -/
theorem isSome_designation?_iff {oid : String} :
    (algorithm.designation? oid).isSome = true ↔ algorithm.Designates oid := by
  rw [designation?, List.find?_isSome, Designates]

/-- And the mode it gives is that of the first. -/
theorem map_mode_designation?_iff {oid : String} {mode : Mode} :
    (algorithm.designation? oid).map Designation.mode = some mode ↔
      algorithm.FirstDesignates oid mode := by
  simp only [Option.map_eq_some_iff, designation?, List.find?_eq_some_iff_append, FirstDesignates,
    Bool.not_eq_true']
  constructor
  · rintro ⟨designation, ⟨like, before, after, split, unlike⟩, same⟩
    exact ⟨before, designation, after, split, like, same, unlike⟩
  · rintro ⟨before, designation, after, split, like, same, unlike⟩
    exact ⟨designation, ⟨like, before, after, split, unlike⟩, same⟩

end Algorithm

namespace Registry

/-- A search gives the pin of the entry of smallest id that matches, or nothing if none does. -/
structure Least (registry : Registry m) (Matches : Algorithm m → Prop)
    (found : Option (Pin m)) : Prop where
  some_iff : ∀ pin, found = some pin ↔
    ∃ entry ∈ registry.entries, entry.pin = pin ∧ Matches entry.algorithm ∧
      ∀ other ∈ registry.entries, Matches other.algorithm → entry.id ≤ other.id
  none_iff : found = none ↔ ∀ entry ∈ registry.entries, ¬ Matches entry.algorithm

/-- Looking leaves the entries and all they count. Only a registry that has never been looked at
gains any: the built-in algorithms, each with the one pin that the registry holds on it. -/
structure Undisturbed [Monad m] (before after : Registry m) : Prop where
  settled : before.prepared = true → after = before
  kept : ∀ entry ∈ before.entries,
    entry ∈ after.entries ∧ after.pinCount entry.pin = before.pinCount entry.pin
  added : ∀ entry ∈ after.entries, entry ∈ before.entries ∨
    before.prepared = false ∧ (entry.id, entry.algorithm) ∈ builtins (m := m) ∧ entry.pins = 1

/-- What the searches find, for every text, and what they leave. -/
structure Agrees [Monad m] (registry : Registry m) : Prop where
  byName : ∀ text, registry.prepare.registry.Least (fun algorithm => algorithm.GoesBy text)
    (registry.lookupName text).value
  /-- A name is looked up to the same, with the same effect, in any case. -/
  recased : ∀ text other, Recased text other → registry.lookupName other = registry.lookupName text
  /-- Behind a label that is taken off, an object identifier is looked up; and it stands for a
  mode if what it is looked up to has this for the first like it. -/
  byOid : ∀ text, ∃ oid, Unlabelled text oid ∧
    registry.prepare.registry.Least (fun algorithm => algorithm.Designates oid)
      (registry.lookupOid text).value ∧
    ∀ mode, (registry.modeOfOid text).value = some mode ↔
      ∃ pin, (registry.lookupOid text).value = some pin ∧ pin.algorithm.FirstDesignates oid mode
  resolved : ∀ text, (registry.resolve text).value =
    ((registry.lookupOid text).value.or (registry.lookupName text).value).map Pin.id
  resolve : ∀ text, registry.Undisturbed (registry.resolve text).registry
  modeOfOid : ∀ text, registry.Undisturbed (registry.modeOfOid text).registry
  nameOf : ∀ id, registry.Undisturbed (registry.nameOf id).registry

variable {registry : Registry m}

/-- In an ascending registry a walk that tests algorithms finds the least that matches. -/
theorem least_find? (ascending : registry.entries.Pairwise fun entry later => entry.id < later.id)
    {answers : Algorithm m → Bool} {Matches : Algorithm m → Prop}
    (exact : ∀ algorithm, answers algorithm = true ↔ Matches algorithm) :
    registry.Least Matches
      ((registry.entries.find? fun entry => answers entry.algorithm).map Entry.pin) := by
  constructor
  · intro pin
    simp only [Option.map_eq_some_iff, find?_eq_some_iff_least ascending, exact]
    constructor
    · rintro ⟨entry, ⟨present, holds, smallest⟩, same⟩
      exact ⟨entry, present, same, holds, smallest⟩
    · rintro ⟨entry, present, same, holds, smallest⟩
      exact ⟨entry, ⟨present, holds, smallest⟩, same⟩
  · rw [Option.map_eq_none_iff, List.find?_eq_none]
    simp only [exact]

/-- Entering algorithms one after the other adds nothing else, and each comes with one pin. -/
theorem mem_enter_each (listed : List (AlgorithmId × Algorithm m)) {entry : Entry m}
    (present : entry ∈ (listed.foldl (fun registry (id, algorithm) => registry.enter id algorithm)
      registry).entries) :
    entry ∈ registry.entries ∨ (entry.id, entry.algorithm) ∈ listed ∧ entry.pins = 1 := by
  induction listed generalizing registry with
  | nil => exact .inl present
  | cons first rest inductionHypothesis =>
    rcases inductionHypothesis present with entered | ⟨later, single⟩
    · rcases eq_or_mem_of_mem_insertEntry entered with rfl | before
      · exact .inr ⟨List.mem_cons_self, rfl⟩
      · exact .inl before
    · exact .inr ⟨List.mem_cons_of_mem first later, single⟩

variable [Monad m]

/-- The mode of an object identifier is read off the entry that it is looked up to. -/
theorem modeOfOid_value (registry : Registry m) (text : String) :
    (registry.modeOfOid text).value = (registry.lookupOid text).value.bind fun pin =>
      (pin.algorithm.designation? (stripOidLabel text)).map Designation.mode := by
  have modes : (registry.modeOfOid text).value = registry.prepare.registry.findMode? text := rfl
  rw [modes, lookupOid, lookup_value, Option.bind_map, findMode?, findOid?,
    findSome?_eq_bind_find?]
  simp only [Option.isSome_map]
  rfl

/-- Getting the registry ready disturbs nothing. -/
theorem undisturbed_prepare (unused : registry.prepared = false → registry.entries = []) :
    registry.Undisturbed registry.prepare.registry := by
  by_cases prepared : registry.prepared = true
  · rw [prepare_of_prepared prepared]
    exact ⟨fun _ => rfl, fun entry present => ⟨present, rfl⟩, fun entry present => .inl present⟩
  · have unprepared := Bool.eq_false_iff.mpr prepared
    have none := unused unprepared
    refine ⟨fun already => absurd already prepared, ?_, fun entry present => ?_⟩
    · rw [none]
      exact fun entry present => absurd present List.not_mem_nil
    · rw [prepare, if_neg prepared] at present
      exact (mem_enter_each builtins present).imp_right fun known => ⟨unprepared, known⟩

/-- In an ascending registry the searches agree. -/
theorem agrees_of_ascending (unused : registry.prepared = false → registry.entries = [])
    (ascending : registry.prepare.registry.entries.Pairwise
      fun entry later => entry.id < later.id) : registry.Agrees := by
  have undisturbed := undisturbed_prepare unused
  constructor
  · intro text
    rw [lookupName, lookup_value]
    exact least_find? ascending fun _ => Algorithm.answersTo_iff
  · intro text other recased
    have answers (algorithm : Algorithm m) :
        algorithm.answersTo other = algorithm.answersTo text := by
      simp only [Algorithm.answersTo, recased.sameIgnoringCase]
    simp only [lookupName, findName?, answers]
  · intro text
    refine ⟨stripOidLabel text, unlabelled_iff.mpr rfl, ?_, fun mode => ?_⟩
    · rw [lookupOid, lookup_value]
      exact least_find? ascending fun _ => Algorithm.isSome_designation?_iff
    · simp only [modeOfOid_value, Option.bind_eq_some_iff, Algorithm.map_mode_designation?_iff]
  · intro text
    rw [lookupOid, lookupName, lookup_value, lookup_value, Option.map_or, Option.map_map,
      Option.map_map, ← Option.map_or]
    rfl
  · exact fun _ => undisturbed
  · exact fun _ => undisturbed
  · exact fun _ => undisturbed

end Registry

namespace Session

open Registry

variable [Monad m] [LawfulMonad m] {history : List (Command m × Step m)} {session : Session m}

/-- In every run on a new registry, with or without built-in algorithms, the searches agree. -/
theorem searches_agree {start : Registry m} (begun : start = .fresh ∨ start = .empty)
    (run : Run { registry := start } history session) : session.registry.Agrees := by
  obtain ⟨_, balanced, _⟩ := (run.reachable .begun).balanced begun
  have ready := (Ledger.Leads.prepare _ session.held balanced).balanced balanced
  exact agrees_of_ascending balanced.unprepared ready.ascending

/-- Two algorithms share a name and an object identifier, and the first has this twice. The one
with the smaller id is found, and its first mode, however the letters are written; what only the
second has leads to the second. -/
theorem searches_agree_specimen :
    let first : Algorithm Id :=
      { Specimen.algorithm with
        name := "First", aliases := ["shared"]
        designations := [⟨"1.2.a", .ecb⟩, ⟨"1.2.A", .cbc⟩] }
    let second : Algorithm Id :=
      { Specimen.algorithm with
        name := "SHARED", aliases := ["Second"]
        designations := [⟨"1.2.A", .ctr⟩, ⟨"oid.9", .ofb⟩] }
    let commands : List (Command Id) :=
      [.register first (some "first"), .register second (some "second")]
    let begin : Session Id := { registry := .empty }
    let last := commands.foldl after begin
    last.registry.Agrees ∧
      (last.registry.lookupName "Shared").value.map Pin.id = some 1024 ∧
      (last.registry.modeOfOid "OID.1.2.A").value = some .ecb ∧
      (last.registry.resolve "oid.oid.9").value = some 1025 ∧
      (last.registry.resolve "sEcOnD").value = some 1025 ∧
      (last.registry.resolve "oid.9").value = none := by
  intro first second commands begin last
  have run : begin.Run (begin.recorded commands) last := Run.ofCommands begin commands
  exact ⟨searches_agree (.inr rfl) run, by decide +kernel, by decide +kernel, by decide +kernel,
    by decide +kernel, by decide +kernel⟩

end Session

end CipherEngine
