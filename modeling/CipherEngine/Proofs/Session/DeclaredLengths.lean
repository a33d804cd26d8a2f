import CipherEngine.Proofs.Session.Builtins
import CipherEngine.Proofs.Session.Opening

/-!
# Declared lengths

The lengths of an algorithm are declared with it, and reported by its id without a handle. An
id stands for one algorithm throughout a run, whatever has been removed meanwhile, so what is
reported is never out of step with the handles: the length of a block is that of the blocks of
every handle under the id, of those before the question and of those after it.

The length of a key is declared in bits and judged in bits, but reported in bytes. The bits
behind the last whole byte are dropped after the length was judged. So what is reported holds
the key exactly if that is a whole number of bytes, and of a key shorter than a byte nothing is
left.
-/
namespace CipherEngine

variable {m : Type → Type}

/-! ## Questions -/

/-- An answer that is made of a value comes from the value. -/
theorem Verdict.map_eq_ok_iff {α β : Type} {change : α → β} (injective : Function.Injective change)
    {verdict : Verdict α} {value : α} :
    (verdict.map fun result => result.map change) = .ok (.ok (change value)) ↔
      verdict = .ok (.ok value) := by
  match verdict with
  | .error _ | .ok (.error _) => simp [Except.map]
  | .ok (.ok other) => simp [Except.map, injective.eq_iff]

/-- A declared number of bits is reported if it is not zero and not above the limit, as so many
whole bytes. -/
theorem Algorithm.reportedKeyLength_eq_ok_iff {algorithm : Algorithm m} {id : AlgorithmId}
    {bytes : Nat} :
    algorithm.reportedKeyLength id = .ok (.ok bytes) ↔
      0 < algorithm.keyBits.toNat ∧ algorithm.keyBits.toNat ≤ keyBitsLimit ∧
        algorithm.keyBits.toNat / 8 = bytes := by
  rw [reportedKeyLength]
  split
  · next empty => simp [empty]
  · next filled =>
    split
    · next above => simp [Nat.not_le.mpr above]
    · next inside => simp [Nat.pos_of_ne_zero filled, Nat.not_lt.mp inside]

/-- A declared block length is reported as it is, if it is not zero and below the limit. -/
theorem Algorithm.reportedBlockLength_eq_ok_iff {algorithm : Algorithm m} {id : AlgorithmId}
    {bytes : Nat} :
    algorithm.reportedBlockLength id = .ok (.ok bytes) ↔
      0 < algorithm.blockLength.toNat ∧ algorithm.blockLength.toNat < blockLengthLimit ∧
        algorithm.blockLength.toNat = bytes := by
  rw [reportedBlockLength]
  split
  · next empty => simp [empty]
  · next filled =>
    split
    · next above => simp [Nat.not_lt.mpr above]
    · next inside => simp [Nat.pos_of_ne_zero filled, Nat.not_le.mp inside]

namespace Registry

variable [Monad m] {registry : Registry m} {id : AlgorithmId} {bytes : Nat}

/-- A question is answered with a value exactly if the algorithm is registered, takes handles,
and gives the value. -/
theorem ask_eq_ok_iff {α : Type} {question : Algorithm m → Verdict α} {value : α} :
    (registry.ask id question).value = .ok (.ok value) ↔
      ∃ entry, registry.prepare.registry.find? id = some entry ∧ entry.disabled = false ∧
        question entry.algorithm = .ok (.ok value) := by
  rw [ask, usable]
  cases found : registry.prepare.registry.find? id with
  | none => simp
  | some entry =>
    cases disabled : entry.disabled with
    | true => simp [disabled]
    | false =>
      simp only [disabled, Bool.false_eq_true, if_false, Option.some.injEq, exists_eq_left',
        true_and]
      cases question entry.algorithm <;> rfl

/-- The length of a key is reported under the id, by either question about it. -/
def ReportsKeyLength (registry : Registry m) (id : AlgorithmId) (bytes : Nat) : Prop :=
  (registry.keyLength id).value = .ok (.ok bytes) ∨
    (registry.info id .keyLength).value = .ok (.ok (.keyLength bytes))

/-- The length of a block is reported under the id, by either question about it. -/
def ReportsBlockLength (registry : Registry m) (id : AlgorithmId) (bytes : Nat) : Prop :=
  (registry.blockLength id).value = .ok (.ok bytes) ∨
    (registry.info id .blockLength).value = .ok (.ok (.blockLength bytes))

/-- Both questions about keys report the same. -/
theorem reportsKeyLength_iff :
    registry.ReportsKeyLength id bytes ↔
      ∃ entry, registry.prepare.registry.find? id = some entry ∧ entry.disabled = false ∧
        0 < entry.algorithm.keyBits.toNat ∧ entry.algorithm.keyBits.toNat ≤ keyBitsLimit ∧
        entry.algorithm.keyBits.toNat / 8 = bytes := by
  have injective : Function.Injective Info.keyLength := fun _ _ => Info.keyLength.inj
  simp only [ReportsKeyLength, keyLength, info, ask_eq_ok_iff, Verdict.map_eq_ok_iff injective,
    Algorithm.reportedKeyLength_eq_ok_iff, or_self]

/-- And so do both questions about blocks. -/
theorem reportsBlockLength_iff :
    registry.ReportsBlockLength id bytes ↔
      ∃ entry, registry.prepare.registry.find? id = some entry ∧ entry.disabled = false ∧
        0 < entry.algorithm.blockLength.toNat ∧
        entry.algorithm.blockLength.toNat < blockLengthLimit ∧
        entry.algorithm.blockLength.toNat = bytes := by
  have injective : Function.Injective Info.blockLength := fun _ _ => Info.blockLength.inj
  simp only [ReportsBlockLength, blockLength, info, ask_eq_ok_iff,
    Verdict.map_eq_ok_iff injective, Algorithm.reportedBlockLength_eq_ok_iff, or_self]

/-! ## What an id stands for -/

/-- The algorithm is built in under the id, or was granted it. -/
def Denotes (granted : List (Grant m)) (id : AlgorithmId) (algorithm : Algorithm m) : Prop :=
  (id, algorithm) ∈ builtins (m := m) ∨ ⟨id, algorithm⟩ ∈ granted

/-- Later grants take nothing away. -/
theorem Denotes.append {granted : List (Grant m)} {algorithm : Algorithm m}
    (denotes : Denotes granted id algorithm) (later : List (Grant m)) :
    Denotes (granted ++ later) id algorithm :=
  denotes.imp_right (List.mem_append_left later)

/-- Where ids are given in order, an id stands for one algorithm. -/
theorem Numbered.denotes_once {granted : List (Grant m)} {algorithm other : Algorithm m}
    (numbered : registry.Numbered granted) (denotes : Denotes granted id algorithm)
    (otherDenotes : Denotes granted id other) : other = algorithm := by
  have apart {built named : Algorithm m} (builtIn : (id, built) ∈ builtins (m := m))
      (given : ⟨id, named⟩ ∈ granted) : False :=
    Nat.not_lt_of_le (numbered.granted_mem given).1 (builtin_lt builtIn)
  rcases denotes with builtIn | given <;> rcases otherDenotes with otherBuiltIn | otherGiven
  · obtain ⟨variant, same⟩ := mem_builtins_iff.mp builtIn
    obtain ⟨another, otherSame⟩ := mem_builtins_iff.mp otherBuiltIn
    obtain ⟨sameId, rfl⟩ := Prod.mk.inj same
    obtain ⟨otherId, rfl⟩ := Prod.mk.inj otherSame
    have alike : another.id = variant.id := otherId.symm.trans sameId
    have equal : another = variant := by
      cases another <;> cases variant <;> first | rfl | cases alike
    rw [equal]
  · exact (apart builtIn otherGiven).elim
  · exact (apart otherBuiltIn given).elim
  · have distinct : (granted.map Grant.id).Nodup := by
      rw [numbered.ids]
      exact List.nodup_range'
    have one := List.inj_on_of_nodup_map distinct otherGiven given rfl
    exact congrArg Grant.algorithm one

end Registry

namespace Session

open Registry

variable [Monad m]

/-- Every handle that is opened under the id, and every one that is open there, has blocks of so
many bytes. -/
structure BlocksUnder (session : Session m) (id : AlgorithmId) (bytes : Nat) : Prop where
  opened : ∀ mode flags machine handle,
    (Handle.openOn session.registry id mode flags machine).value = .ok (.live handle) →
      handle.blockLength = bytes
  held : ∀ place ∈ session.handles, ∀ handle, place.2 = .live handle → handle.pin.id = id →
    handle.blockLength = bytes

variable [LawfulMonad m] {start : Registry m} {history later : List (Command m × Step m)}
  {session last : Session m} {id : AlgorithmId}

/-- What is registered once the registry is ready, is built in or was granted its id. -/
theorem Run.denotes (begun : start = .fresh ∨ start = .empty)
    (run : Run { registry := start } history session) {entry : Entry m}
    (found : session.registry.prepare.registry.find? id = some entry) :
    Denotes (grants history) id entry.algorithm := by
  have numbered := (run.course.andThen (Course.prepare session.registry)).numbered begun
  obtain ⟨present, rfl⟩ := mem_of_find? found
  exact numbered.named entry present

/-- Where an id can stand for one algorithm only, the blocks under it have its length. -/
theorem Run.blocksUnder (begun : start = .fresh ∨ start = .empty)
    (run : Run { registry := start } history session) {algorithm : Algorithm m}
    (only : ∀ other, Denotes (grants history) id other → other = algorithm) :
    session.BlocksUnder id algorithm.blockLength.toNat := by
  obtain ⟨_, balanced, _⟩ := (run.reachable .begun).balanced begun
  have ready := (Ledger.Leads.prepare _ session.held balanced).balanced balanced
  constructor
  · intro mode flags machine handle given
    rcases Handle.openOn_decides ready id mode flags machine with
      ⟨_, cause, _, _, refused, _⟩ | ⟨entry, layout, arena, admits, made, _⟩
    · cases refused.symm.trans given
    · obtain rfl := Handle.live.inj (Except.ok.inj (made.symm.trans given))
      rw [← only _ (run.denotes begun admits.registered)]
      rfl
  · rintro place there handle live rfl
    obtain ⟨entry, found, _, pinned⟩ :=
      (accounted_of_balanced balanced).handles place there handle live
    obtain ⟨present, same⟩ := mem_of_find? found
    have denotes := (run.course.numbered begun).named entry present
    rw [same] at denotes
    rw [← only _ denotes, LiveHandle.blockLength, ← pinned]
    rfl

/-- At any two points of a run, the blocks under an id have the length that is declared for the
algorithm which it stands for at either. -/
theorem Run.blocksUnder_of_found (begun : start = .fresh ∨ start = .empty)
    (run : Run { registry := start } history session) (continued : session.Run later last)
    {entry : Entry m} (found : session.registry.prepare.registry.find? id = some entry ∨
      last.registry.prepare.registry.find? id = some entry) :
    session.BlocksUnder id entry.algorithm.blockLength.toNat ∧
      last.BlocksUnder id entry.algorithm.blockLength.toNat := by
  have whole := run.trans continued
  have granted : grants (history ++ later) = grants history ++ grants later :=
    List.flatMap_append
  have numbered := whole.course.numbered begun
  have denotes : Denotes (grants (history ++ later)) id entry.algorithm := by
    rcases found with earlier | final
    · rw [granted]
      exact (run.denotes begun earlier).append _
    · exact whole.denotes begun final
  constructor
  · refine run.blocksUnder begun fun other otherDenotes => numbered.denotes_once denotes ?_
    rw [granted]
    exact otherDenotes.append _
  · exact whole.blocksUnder begun fun other => numbered.denotes_once denotes

/-- At any point of a run on a new registry, and under any id: a key length that is reported is
that of a usable algorithm in whole bytes, at most 64 of them. It is not zero just when a byte is
declared at all, and holds the declared key just when that is a whole number of bytes; otherwise
up to seven bits of the key are left out.

A block length that is reported is from 1 to 9999 bytes, and it is the length of the blocks of
every handle that is opened under the id or open there, now, later in the run, and before. -/
theorem lengths_reported (begun : start = .fresh ∨ start = .empty)
    (run : Run { registry := start } history session) (id : AlgorithmId) :
    (∀ bytes, session.registry.ReportsKeyLength id bytes →
      ∃ entry, session.registry.prepare.registry.find? id = some entry ∧
        let bits := entry.algorithm.keyBits.toNat
        bytes ≤ 64 ∧ 8 * bytes ≤ bits ∧ bits < 8 * bytes + 8 ∧ (1 ≤ bytes ↔ 8 ≤ bits) ∧
          (1 ≤ bytes ∧ bits ≤ 8 * bytes ↔ 8 ∣ bits)) ∧
    ∀ bytes, session.registry.ReportsBlockLength id bytes →
      1 ≤ bytes ∧ bytes < 10000 ∧
        (∀ later last, session.Run later last → last.BlocksUnder id bytes) ∧
        ∀ past earlier between, Run { registry := start } past earlier →
          earlier.Run between session → earlier.BlocksUnder id bytes := by
  constructor
  · intro bytes reported
    obtain ⟨entry, found, _, positive, inside, rfl⟩ := reportsKeyLength_iff.mp reported
    have most : entry.algorithm.keyBits.toNat ≤ 512 := inside
    exact ⟨entry, found, by omega, by omega, by omega, by omega, by omega⟩
  · intro bytes reported
    obtain ⟨entry, found, _, positive, below, rfl⟩ := reportsBlockLength_iff.mp reported
    refine ⟨positive, below, fun later last continued => ?_, ?_⟩
    · exact (run.blocksUnder_of_found begun continued (.inl found)).2
    · intro past earlier between runBefore continued
      exact (runBefore.blocksUnder_of_found begun continued (.inr found)).1

/-- The specimen with a key of twelve bits: a handle is opened on it, and its pin is given back.
One byte is reported for the key, and the length of the handle's blocks for the block. -/
theorem lengths_reported_specimen :
    let commands : List (Command Id) :=
      [.register { Specimen.algorithm with keyBits := 12 } (some "pin"),
        .openHandle "handle" (.pin "pin") .cbc {}, .dropPin "pin"]
    let session := commands.foldl after { registry := .fresh }
    session.registry.ReportsKeyLength firstFreeId 1 ∧
      session.registry.ReportsBlockLength firstFreeId 16 ∧
      (∃ entry, session.registry.prepare.registry.find? firstFreeId = some entry ∧
        entry.algorithm.keyBits.toNat < 16) ∧
      (session.after (.close "handle")).BlocksUnder firstFreeId 16 := by
  intro commands session
  have run : Run { registry := .fresh } (recorded { registry := .fresh } commands) session :=
    Run.ofCommands _ commands
  have continued : session.Run (session.recorded [.close "handle"])
      (session.after (.close "handle")) := Run.ofCommands session [.close "handle"]
  have key : session.registry.ReportsKeyLength firstFreeId 1 := .inl (by decide +kernel)
  have block : session.registry.ReportsBlockLength firstFreeId 16 := .inr (by decide +kernel)
  obtain ⟨keys, blocks⟩ := lengths_reported (.inl rfl) run firstFreeId
  obtain ⟨entry, found, _, _, less, _⟩ := keys 1 key
  obtain ⟨_, _, onward, _⟩ := blocks 16 block
  exact ⟨key, block, ⟨entry, found, less⟩, onward _ _ continued⟩

/-- Of a key of seven bits no byte is reported, and of one of twelve bits one byte, though both
algorithms may be used. -/
theorem short_key_reported_empty :
    let commands : List (Command Id) :=
      [.register { Specimen.algorithm with keyBits := 7 } (some "seven"),
        .register { Specimen.algorithm with keyBits := 12 } (some "twelve")]
    let session := commands.foldl after { registry := .empty }
    let declared (id : AlgorithmId) :=
      (session.registry.find? id).map fun entry => entry.algorithm.keyBits.toNat
    session.ReachableFrom .empty ∧
      declared 1024 = some 7 ∧ session.registry.ReportsKeyLength 1024 0 ∧
      declared 1025 = some 12 ∧ session.registry.ReportsKeyLength 1025 1 ∧
      ¬ (∀ id bytes, session.registry.ReportsKeyLength id bytes →
        1 ≤ bytes ∧ bytes ≤ 64 ∧ ∀ bits, declared id = some bits → bits ≤ 8 * bytes) := by
  intro commands session declared
  have seven : session.registry.ReportsKeyLength 1024 0 := .inl (by decide +kernel)
  have twelve : session.registry.ReportsKeyLength 1025 1 := .inl (by decide +kernel)
  refine ⟨ReachableFrom.begun.afterAll commands, by decide +kernel, seven, by decide +kernel,
    twelve, fun claimed => ?_⟩
  have positive : 1 ≤ 0 := (claimed 1024 0 seven).1
  exact absurd positive (by decide)

end Session

end CipherEngine
