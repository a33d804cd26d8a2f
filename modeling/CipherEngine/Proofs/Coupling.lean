import CipherEngine.Proofs.Computation

/-!
# Computations that run in parallel

A correspondence compares computations of two monads. It says which computations
correspond under a relation between their values, and all that is asked of it is that
values correspond to values, and that what follows corresponding computations may
correspond in its turn. What it makes of effects is its own affair: it may demand that
they are the same, or look at some and not at others.

`coupling` is the correspondence of computations with the same effects. Two computations
are coupled when they are the two sides of one computation of related pairs. What reads
nothing of the difference makes them equal. `valued` looks at no effects, and asks that
each of the computations has one value.

`Parallel` is for computations that may stop: they stop together, with one cause, or
their values are related.
-/
namespace CipherEngine

/-- A way to compare computations of two monads. -/
structure Correspondence (m n : Type → Type) [Monad m] [Monad n] where
  /-- The computations correspond, with related values. -/
  Relates : {α β : Type} → (α → β → Prop) → m α → n β → Prop
  /-- Related values correspond. -/
  pure : ∀ {α β : Type} {related : α → β → Prop} {value : α} {other : β},
    related value other → Relates related (Pure.pure value) (Pure.pure other)
  /-- Related values are handed on to what follows on either side. -/
  bind : ∀ {α β γ δ : Type} {first : m α} {second : n β} {next : α → m γ}
    {following : β → n δ} {related : α → β → Prop} {final : γ → δ → Prop},
    Relates related first second →
    (∀ value other, related value other → Relates final (next value) (following other)) →
      Relates final (first >>= next) (second >>= following)

variable {m n : Type → Type} {α β γ δ ε : Type}

/-- The computations are the two sides of one computation of related pairs. -/
def Coupled [Functor m] (related : α → β → Prop) (first : m α) (second : m β) : Prop :=
  ∃ both : m { pair : α × β // related pair.1 pair.2 },
    (fun pair => pair.1.1) <$> both = first ∧ (fun pair => pair.1.2) <$> both = second

/-- Both results are values and related, or both are the same cause. -/
def Agree (related : α → β → Prop) : Except ε α → Except ε β → Prop
  | .ok value, .ok other => related value other
  | .error cause, .error other => cause = other
  | _, _ => False

/-- Results that agree are related values or one cause. -/
theorem Agree.values_or_cause {related : α → β → Prop} {result : Except ε α} {other : Except ε β}
    (agree : Agree related result other) :
    (∃ value otherValue, result = .ok value ∧ other = .ok otherValue ∧ related value otherValue) ∨
      ∃ cause, result = .error cause ∧ other = .error cause := by
  match result, other with
  | .ok value, .ok otherValue => exact .inl ⟨value, otherValue, rfl, rfl, agree⟩
  | .error cause, .error otherCause => exact .inr ⟨cause, rfl, congrArg Except.error agree.symm⟩

/-- The computations stop together or return related values. -/
def Parallel [Monad m] [Monad n] (correspondence : Correspondence m n) (related : α → β → Prop)
    (first : ExceptT ε m α) (second : ExceptT ε n β) : Prop :=
  correspondence.Relates (Agree related) first.run second.run

namespace Coupled

variable [Monad m] [LawfulMonad m]

/-- Related values are coupled. -/
theorem pure {related : α → β → Prop} {value : α} {other : β} (holds : related value other) :
    Coupled related (Pure.pure value : m α) (Pure.pure other) :=
  ⟨Pure.pure ⟨(value, other), holds⟩, map_pure _ _, map_pure _ _⟩

/-- A computation is coupled with itself. -/
theorem refl (computation : m α) : Coupled (· = ·) computation computation := by
  refine ⟨(fun value => ⟨(value, value), rfl⟩) <$> computation, ?_, ?_⟩ <;>
    rw [← comp_map] <;> exact id_map _

/-- Related values are handed on to what follows on either side. -/
theorem bind {first : m α} {second : m β} {next : α → m γ} {following : β → m δ}
    {related : α → β → Prop} {final : γ → δ → Prop} (coupled : Coupled related first second)
    (continued : ∀ value other, related value other →
      Coupled final (next value) (following other)) :
    Coupled final (first >>= next) (second >>= following) := by
  obtain ⟨both, rfl, rfl⟩ := coupled
  have chosen : ∀ pair : { pair : α × β // related pair.1 pair.2 },
      ∃ later : m { pair : γ × δ // final pair.1 pair.2 },
        (fun pair => pair.1.1) <$> later = next pair.1.1 ∧
          (fun pair => pair.1.2) <$> later = following pair.1.2 :=
    fun pair => continued _ _ pair.2
  obtain ⟨later, sides⟩ := Classical.axiomOfChoice chosen
  refine ⟨both >>= later, ?_, ?_⟩
  · rw [map_bind, bind_map_left]
    exact bind_congr fun pair => (sides pair).1
  · rw [map_bind, bind_map_left]
    exact bind_congr fun pair => (sides pair).2

/-- What follows one computation in two ways is coupled, if it is for every value that the
computation is known to have. -/
theorem after {first : m α} {next : α → m β} {following : α → m γ} {property : α → Prop}
    {final : β → γ → Prop} (ensured : Ensures first property)
    (continued : ∀ value, property value → Coupled final (next value) (following value)) :
    Coupled final (first >>= next) (first >>= following) := by
  obtain ⟨certified, rfl⟩ := ensured
  rw [bind_map_left, bind_map_left]
  exact (Coupled.refl certified).bind fun value _ same => same ▸ continued value.1 value.2

/-- And so it is after a computation that goes through. -/
theorem afterCompleted {first : ExceptT ε m α} {next : α → ExceptT ε m β}
    {following : α → ExceptT ε m γ} {property : α → Prop} {final : Except ε β → Except ε γ → Prop}
    (completed : Completes first property)
    (continued : ∀ value, property value → Coupled final (next value).run (following value).run) :
    Coupled final (first >>= next).run (first >>= following).run := by
  rw [ExceptT.run_bind, ExceptT.run_bind]
  refine after completed fun result holds => ?_
  obtain ⟨value, rfl, holds⟩ := holds
  exact continued value holds

/-- What follows from a relation may take its place. -/
theorem mono {first : m α} {second : m β} {related weaker : α → β → Prop}
    (coupled : Coupled related first second)
    (implied : ∀ value other, related value other → weaker value other) :
    Coupled weaker first second := by
  obtain ⟨both, rfl, rfl⟩ := coupled
  refine ⟨(fun pair => ⟨pair.1, implied _ _ pair.2⟩) <$> both, ?_, ?_⟩ <;>
    exact (comp_map _ _ _).symm

/-- The first of coupled computations returns what is related to something. -/
theorem ensures {first : m α} {second : m β} {related : α → β → Prop}
    (coupled : Coupled related first second) :
    Ensures first fun value => ∃ other, related value other := by
  obtain ⟨both, rfl, rfl⟩ := coupled
  exact ⟨(fun pair => ⟨pair.1.1, pair.1.2, pair.2⟩) <$> both, (comp_map _ _ _).symm⟩

/-- What reads nothing of the difference makes coupled computations equal. -/
theorem map_eq {first : m α} {second : m β} {related : α → β → Prop} {view : α → γ}
    {otherView : β → γ} (coupled : Coupled related first second)
    (same : ∀ value other, related value other → view value = otherView other) :
    view <$> first = otherView <$> second := by
  obtain ⟨both, rfl, rfl⟩ := coupled
  rw [← comp_map, ← comp_map]
  exact map_congr fun pair => same _ _ pair.2

end Coupled

/-- Computations of one monad correspond when they have the same effects. -/
def coupling (m : Type → Type) [Monad m] [LawfulMonad m] : Correspondence m m where
  Relates := Coupled
  pure := Coupled.pure
  bind := Coupled.bind

/-- Of the coupling, this is the relation. -/
theorem coupling_relates [Monad m] [LawfulMonad m] {related : α → β → Prop} {first : m α}
    {second : m β} : (coupling m).Relates related first second ↔ Coupled related first second :=
  Iff.rfl

/-- The computation has one value, whatever else it does. -/
def Settled [Functor m] (computation : m α) : Prop :=
  ∃ value, Yields computation value

/-- Computations of two monads correspond when each has one value, and these are related. -/
def valued (m n : Type → Type) [Monad m] [LawfulMonad m] [Monad n] [LawfulMonad n] :
    Correspondence m n where
  Relates related first second :=
    ∃ value other, Yields first value ∧ Yields second other ∧ related value other
  pure holds := ⟨_, _, Yields.pure _, Yields.pure _, holds⟩
  bind := by
    rintro _ _ _ _ _ _ _ _ _ _ ⟨value, other, yielded, otherYielded, holds⟩ continued
    obtain ⟨last, otherLast, later, otherLater, related⟩ := continued value other holds
    exact ⟨last, otherLast, yielded.bind later, otherYielded.bind otherLater, related⟩

/-- And of computations with values, this. -/
theorem valued_relates [Monad m] [LawfulMonad m] [Monad n] [LawfulMonad n]
    {related : α → β → Prop} {first : m α} {second : n β} :
    (valued m n).Relates related first second ↔
      ∃ value other, Yields first value ∧ Yields second other ∧ related value other :=
  Iff.rfl

/-- A computation with one value corresponds to itself. -/
theorem Settled.relates [Monad m] [LawfulMonad m] {computation : m α}
    (settled : Settled computation) :
    (valued m m).Relates (· = ·) computation computation := by
  obtain ⟨value, yielded⟩ := settled
  exact ⟨value, value, yielded, yielded, rfl⟩

variable [Monad m] [Monad n]

namespace Parallel

variable {correspondence : Correspondence m n} {related : α → β → Prop} {final : γ → δ → Prop}

/-- Related values run in parallel. -/
theorem pure {value : α} {other : β} (holds : related value other) :
    Parallel correspondence related (Pure.pure value : ExceptT ε m α) (Pure.pure other) :=
  correspondence.pure holds

/-- Computations that stop with one cause stop together. -/
theorem throw (related : α → β → Prop) (cause : ε) :
    Parallel correspondence related (MonadExcept.throw cause : ExceptT ε m α)
      (MonadExcept.throw cause) :=
  correspondence.pure rfl

/-- Related values are handed on, and a stop on one side is a stop on the other. -/
theorem bind {first : ExceptT ε m α} {second : ExceptT ε n β} {next : α → ExceptT ε m γ}
    {following : β → ExceptT ε n δ} (parallel : Parallel correspondence related first second)
    (continued : ∀ value other, related value other →
      Parallel correspondence final (next value) (following other)) :
    Parallel correspondence final (first >>= next) (second >>= following) := by
  unfold Parallel
  rw [ExceptT.run_bind, ExceptT.run_bind]
  refine correspondence.bind parallel fun result other agree => ?_
  obtain ⟨value, other, rfl, rfl, holds⟩ | ⟨cause, rfl, rfl⟩ := agree.values_or_cause
  · exact continued value other holds
  · exact correspondence.pure rfl

end Parallel

namespace Checked

variable (correspondence : Correspondence m n)

/-- A cut is made at one place in both, or in neither. -/
theorem split_parallel (count : Nat) (bytes : Bytes) :
    Parallel correspondence
      (fun pieces others => pieces = others ∧ pieces.1.length = count ∧
        pieces.1 ++ pieces.2 = bytes)
      (split count bytes : Checked m (Bytes × Bytes)) (split count bytes) := by
  rw [split, split]
  split
  · next inside =>
    exact Parallel.pure ⟨rfl, List.length_take_of_le inside, List.take_append_drop count bytes⟩
  · exact Parallel.throw _ _

/-- A buffer takes the place of either of two buffers of one length, or of neither. -/
theorem replace_parallel {old otherOld : Bytes} (fresh : Bytes)
    (same : otherOld.length = old.length) :
    Parallel correspondence
      (fun kept otherKept => fresh = kept ∧ fresh = otherKept ∧ fresh.length = old.length)
      (replace old fresh : Checked m Bytes) (replace otherOld fresh) := by
  rw [replace, replace, same]
  split
  · next fits => exact Parallel.pure ⟨rfl, rfl, fits⟩
  · exact Parallel.throw _ _

/-- A difference is taken in both, or in neither. -/
theorem subtract_parallel (minuend subtrahend : Nat) :
    Parallel correspondence
      (fun difference other => difference = other ∧ difference = minuend - subtrahend)
      (subtract minuend subtrahend : Checked m Nat) (subtract minuend subtrahend) := by
  rw [subtract, subtract]
  split
  · exact Parallel.pure ⟨rfl, rfl⟩
  · exact Parallel.throw _ _

/-- A quotient is taken in both, or in neither. -/
theorem quotient_parallel (dividend divisor : Nat) :
    Parallel correspondence (· = ·) (quotient dividend divisor : Checked m Nat)
      (quotient dividend divisor) := by
  rw [quotient, quotient]
  split
  · exact Parallel.throw _ _
  · exact Parallel.pure rfl

/-- A remainder is taken in both, or in neither. -/
theorem remainder_parallel (dividend divisor : Nat) :
    Parallel correspondence (· = ·) (remainder dividend divisor : Checked m Nat)
      (remainder dividend divisor) := by
  rw [remainder, remainder]
  split
  · exact Parallel.throw _ _
  · exact Parallel.pure rfl

/-- A buffer is cut into the same blocks in both, or in neither. -/
theorem wholeBlocks_parallel (size : Nat) (bytes : Bytes) :
    Parallel correspondence (· = ·) (wholeBlocks size bytes : Checked m (List Bytes × Bytes))
      (wholeBlocks size bytes) := by
  apply Parallel.bind (quotient_parallel correspondence _ _)
  rintro count _ rfl
  exact Parallel.pure rfl

end Checked

variable [LawfulMonad m] [LawfulMonad n]

/-- Related values may be changed on either side. -/
theorem Correspondence.map (correspondence : Correspondence m n) {first : m α} {second : n β}
    {change : α → γ} {otherChange : β → δ} {related : α → β → Prop} {final : γ → δ → Prop}
    (relates : correspondence.Relates related first second)
    (changed : ∀ value other, related value other → final (change value) (otherChange other)) :
    correspondence.Relates final (change <$> first) (otherChange <$> second) := by
  rw [map_eq_pure_bind, map_eq_pure_bind]
  exact correspondence.bind relates fun value other holds =>
    correspondence.pure (changed value other holds)

namespace Parallel

variable {correspondence : Correspondence m n} {related : α → β → Prop}

/-- What follows from a relation may take its place. -/
theorem mono {first : ExceptT ε m α} {second : ExceptT ε n β} {weaker : α → β → Prop}
    (parallel : Parallel correspondence related first second)
    (implied : ∀ value other, related value other → weaker value other) :
    Parallel correspondence weaker first second := by
  have agrees (result : Except ε α) (other : Except ε β) (agree : Agree related result other) :
      Agree weaker (id result) (id other) := by
    obtain ⟨value, other, rfl, rfl, holds⟩ | ⟨cause, rfl, rfl⟩ := agree.values_or_cause
    · exact implied value other holds
    · rfl
  have mapped := correspondence.map parallel agrees
  rwa [id_map, id_map] at mapped

/-- Corresponding computations without stops do not stop. -/
theorem lift {first : m α} {second : n β} (relates : correspondence.Relates related first second) :
    Parallel correspondence related (ExceptT.lift first : ExceptT ε m α) (ExceptT.lift second) := by
  unfold Parallel
  rw [ExceptT.run_lift, ExceptT.run_lift]
  exact correspondence.map relates fun _ _ holds => holds

/-- Renaming the causes of stops keeps computations parallel. -/
theorem adapt {causes : Type} {first : ExceptT ε m α} {second : ExceptT ε n β}
    (rename : ε → causes) (parallel : Parallel correspondence related first second) :
    Parallel correspondence related (ExceptT.adapt rename first)
      (ExceptT.adapt rename second) := by
  have renamed (result : Except ε α) (other : Except ε β) (agree : Agree related result other) :
      Agree related (result.mapError rename) (other.mapError rename) := by
    obtain ⟨value, other, rfl, rfl, holds⟩ | ⟨cause, rfl, rfl⟩ := agree.values_or_cause
    · exact holds
    · rfl
  exact correspondence.map parallel renamed

/-- Computations that go through with related values do so in parallel. -/
theorem of_gives {first : ExceptT ε m α} {second : ExceptT ε n β} {value : α} {other : β}
    (given : Gives first value) (otherGiven : Gives second other) (holds : related value other) :
    Parallel (valued m n) related first second :=
  ⟨.ok value, .ok other, given, otherGiven, holds⟩

/-- A computation runs in parallel with itself. -/
theorem refl (computation : ExceptT ε m α) :
    Parallel (coupling m) (· = ·) computation computation := by
  have agrees (result other : Except ε α) (equal : result = other) :
      Agree (· = ·) (id result) (id other) := by
    subst equal
    cases result <;> rfl
  have same := (coupling m).map (Coupled.refl computation.run) agrees
  rwa [id_map] at same

end Parallel

end CipherEngine
