import CipherEngine.Fault

/-!
# What a computation returns

The engine runs in a monad, since a primitive may count or record its own calls.
Most statements about the engine concern the values returned and not these
effects. `Ensures` bounds the values of a computation, `Yields` fixes its one
value, and `MayReturn` is membership in the least property that is ensured. None
of them says which effects take place, or assumes that there are none.

A computation that may stop has four readings of its own. `Gives` says that it
goes through and fixes its value, `Completes` that it goes through and bounds its
value, `Stops` that it stops and fixes the cause, and `Guards` bounds its value where
it goes through.
-/
namespace CipherEngine

variable {m : Type → Type} {α β ε δ : Type}

/-- Every value that the computation returns has the property: the computation
is the image of one whose values carry the proof. -/
def Ensures [Functor m] (computation : m α) (property : α → Prop) : Prop :=
  ∃ certified : m { value : α // property value }, Subtype.val <$> certified = computation

/-- The computation returns this value, whatever else it does. -/
def Yields [Functor m] (computation : m α) (value : α) : Prop :=
  Ensures computation fun returned => returned = value

/-- No property that the computation ensures excludes the value. -/
def MayReturn [Functor m] (computation : m α) (value : α) : Prop :=
  ∀ property : α → Prop, Ensures computation property → property value

/-- The computation goes through and returns this value. -/
def Gives [Functor m] (computation : ExceptT ε m α) (value : α) : Prop :=
  Yields computation.run (.ok value)

/-- The computation goes through, and every value that it returns has the property. -/
def Completes [Functor m] (computation : ExceptT ε m α) (property : α → Prop) : Prop :=
  Ensures computation.run fun result => ∃ value, result = .ok value ∧ property value

/-- The computation stops with this cause. -/
def Stops [Functor m] (computation : ExceptT ε m α) (cause : ε) : Prop :=
  Yields computation.run (.error cause)

/-- If the computation goes through, its value has the property. -/
def Guards [Functor m] (computation : ExceptT ε m α) (property : α → Prop) : Prop :=
  Ensures computation.run fun result => ∀ value, result = .ok value → property value

variable [Monad m] [LawfulMonad m]

/-- Nothing follows a stop. -/
theorem throw_bind (cause : ε) (next : α → ExceptT ε m β) :
    (throw cause : ExceptT ε m α) >>= next = throw cause := by
  apply ExceptT.ext
  rw [ExceptT.run_bind]
  exact pure_bind _ _

namespace Ensures

/-- A value that has the property is ensured to have it. -/
theorem pure {value : α} {property : α → Prop} (holds : property value) :
    Ensures (Pure.pure value : m α) property :=
  ⟨Pure.pure ⟨value, holds⟩, map_pure _ _⟩

/-- What holds of every value is ensured. -/
theorem always (computation : m α) {property : α → Prop} (holds : ∀ value, property value) :
    Ensures computation property :=
  ⟨(fun value => ⟨value, holds value⟩) <$> computation, by rw [← comp_map]; exact id_map _⟩

/-- What follows from what is ensured is ensured. -/
theorem mono {computation : m α} {property final : α → Prop}
    (ensured : Ensures computation property) (implied : ∀ value, property value → final value) :
    Ensures computation final := by
  obtain ⟨certified, rfl⟩ := ensured
  exact ⟨(fun value => ⟨value.1, implied _ value.2⟩) <$> certified, by rw [← comp_map]; rfl⟩

/-- What is ensured apart is ensured together, unless no value at all has both. -/
theorem and {computation : m α} {property other : α → Prop} (ensured : Ensures computation property)
    (also : Ensures computation other) (both : α) (holds : property both ∧ other both) :
    Ensures computation fun value => property value ∧ other value := by
  classical
  obtain ⟨certified, same⟩ := ensured
  obtain ⟨alike, rfl⟩ := also
  -- Values without the first property could be replaced by one with both, and there are none.
  let replace (value : α) : α := if property value then value else both
  let kept (value : { value // other value }) : { value // property value ∧ other value } :=
    if first : property value.1 then ⟨value.1, first, value.2⟩ else ⟨both, holds⟩
  have values : Subtype.val ∘ kept = replace ∘ Subtype.val := by
    funext value
    by_cases first : property value.1 <;> simp [kept, replace, first]
  have spares : replace ∘ Subtype.val = (Subtype.val : { value // property value } → α) := by
    funext value
    exact if_pos value.2
  refine ⟨kept <$> alike, ?_⟩
  rw [← comp_map, values, comp_map, ← same, ← comp_map, spares]

/-- What every continuation of an ensured value ensures, the whole ensures. -/
theorem bind {first : m α} {next : α → m β} {property : α → Prop} {final : β → Prop}
    (ensured : Ensures first property)
    (continued : ∀ value, property value → Ensures (next value) final) :
    Ensures (first >>= next) final := by
  obtain ⟨certified, rfl⟩ := ensured
  have chosen : ∀ value : { value // property value },
      ∃ certain : m { value // final value }, Subtype.val <$> certain = next value.1 :=
    fun value => continued value.1 value.2
  obtain ⟨certain, exactly⟩ := Classical.axiomOfChoice chosen
  refine ⟨certified >>= certain, ?_⟩
  rw [map_bind, bind_map_left]
  exact bind_congr exactly

/-- Continuations that agree on every ensured value are followed alike. -/
theorem bind_eq {first : m α} {next other : α → m β} {property : α → Prop}
    (ensured : Ensures first property)
    (agree : ∀ value, property value → next value = other value) :
    first >>= next = first >>= other := by
  obtain ⟨certified, rfl⟩ := ensured
  rw [bind_map_left, bind_map_left]
  exact bind_congr fun value => agree value.1 value.2

/-- What the image of every ensured value has, the image of the computation ensures. -/
theorem map {computation : m α} {change : α → β} {property : α → Prop} {final : β → Prop}
    (ensured : Ensures computation property)
    (mapped : ∀ value, property value → final (change value)) :
    Ensures (change <$> computation) final := by
  rw [map_eq_pure_bind]
  exact ensured.bind fun value holds => Ensures.pure (mapped value holds)

end Ensures

namespace Yields

/-- A value is the one that is returned. -/
theorem pure (value : α) : Yields (Pure.pure value : m α) value := Ensures.pure rfl

/-- A computation that only returns a value yields it. -/
theorem of_eq {computation : m α} {value : α} (same : computation = Pure.pure value) :
    Yields computation value := same ▸ pure value

/-- A value that is yielded is handed on to what follows. -/
theorem bind {first : m α} {next : α → m β} {value : α} {last : β}
    (yielded : Yields first value) (continued : Yields (next value) last) :
    Yields (first >>= next) last :=
  Ensures.bind yielded fun _ same => same ▸ continued

/-- If the value is changed, what it is changed to is yielded. -/
theorem map {computation : m α} {value : α} (change : α → β)
    (yielded : Yields computation value) : Yields (change <$> computation) (change value) :=
  Ensures.map yielded fun _ same => congrArg change same

end Yields

namespace Gives

/-- A value goes through. -/
theorem pure (value : α) : Gives (Pure.pure value : ExceptT ε m α) value := Yields.pure _

/-- What is given is handed on to what follows, which gives the whole. -/
theorem bind {first : ExceptT ε m α} {next : α → ExceptT ε m β} {value : α} {last : β}
    (given : Gives first value) (continued : Gives (next value) last) :
    Gives (first >>= next) last := by
  unfold Gives
  rw [ExceptT.run_bind]
  exact Yields.bind given continued

/-- A computation without stops goes through. -/
theorem lift {computation : m α} {value : α} (yielded : Yields computation value) :
    Gives (ExceptT.lift computation : ExceptT ε m α) value := by
  unfold Gives
  rw [ExceptT.run_lift]
  exact Yields.map _ yielded

/-- Renaming the causes of stops changes no value. -/
theorem adapt {computation : ExceptT ε m α} {value : α} (rename : ε → δ)
    (given : Gives computation value) : Gives (ExceptT.adapt rename computation) value :=
  Yields.map (Except.mapError rename) given

end Gives

namespace Completes

/-- A value that has the property goes through with it. -/
theorem pure {value : α} {property : α → Prop} (holds : property value) :
    Completes (Pure.pure value : ExceptT ε m α) property :=
  Ensures.pure ⟨value, rfl, holds⟩

/-- If every continuation of a value with the property goes through, then so does the whole. -/
theorem bind {first : ExceptT ε m α} {next : α → ExceptT ε m β} {property : α → Prop}
    {final : β → Prop} (completed : Completes first property)
    (continued : ∀ value, property value → Completes (next value) final) :
    Completes (first >>= next) final := by
  unfold Completes
  rw [ExceptT.run_bind]
  refine Ensures.bind completed fun result holds => ?_
  obtain ⟨value, rfl, holds⟩ := holds
  exact continued value holds

/-- What is known of a value that is given is what follows from it. -/
theorem of_gives {computation : ExceptT ε m α} {value : α} {property : α → Prop}
    (given : Gives computation value) (holds : property value) : Completes computation property :=
  Ensures.mono given fun _ same => ⟨value, same, holds⟩

/-- A first step whose value is known. -/
theorem after {first : ExceptT ε m α} {next : α → ExceptT ε m β} {value : α} {final : β → Prop}
    (given : Gives first value) (continued : Completes (next value) final) :
    Completes (first >>= next) final :=
  bind (of_gives given rfl) fun _ same => same ▸ continued

/-- What follows from what is known of the value is known of it. -/
theorem mono {computation : ExceptT ε m α} {property final : α → Prop}
    (completed : Completes computation property)
    (implied : ∀ value, property value → final value) : Completes computation final :=
  Ensures.mono completed fun _ ⟨value, same, holds⟩ => ⟨value, same, implied value holds⟩

/-- A computation without stops goes through. -/
theorem lift {computation : m α} {property : α → Prop} (ensured : Ensures computation property) :
    Completes (ExceptT.lift computation : ExceptT ε m α) property := by
  unfold Completes
  rw [ExceptT.run_lift]
  exact Ensures.map ensured fun value holds => ⟨value, rfl, holds⟩

/-- Renaming the causes of stops changes no value. -/
theorem adapt {computation : ExceptT ε m α} {property : α → Prop} (rename : ε → δ)
    (completed : Completes computation property) :
    Completes (ExceptT.adapt rename computation) property :=
  Ensures.map completed fun _ ⟨value, same, holds⟩ =>
    ⟨value, congrArg (Except.mapError rename) same, holds⟩

/-- Where nothing stops there is no cause to rename. -/
theorem adapt_eq {computation : ExceptT ε m α} {property : α → Prop} (rename : ε → ε)
    (completed : Completes computation property) :
    ExceptT.adapt rename computation = computation := by
  obtain ⟨certified, same⟩ := completed
  change Except.mapError rename <$> computation.run = computation.run
  rw [← same, ← comp_map]
  refine map_congr fun result => ?_
  obtain ⟨_, value, rfl, _⟩ := result
  rfl

end Completes

namespace Stops

/-- A stop stops, with its cause. -/
theorem throw (cause : ε) : Stops (MonadExcept.throw cause : ExceptT ε m α) cause :=
  Yields.pure _

/-- Nothing follows a stop. -/
theorem bind {first : ExceptT ε m α} {cause : ε} (next : α → ExceptT ε m β)
    (stopped : Stops first cause) : Stops (first >>= next) cause := by
  unfold Stops
  rw [ExceptT.run_bind]
  exact Yields.bind stopped (Yields.pure _)

/-- A stop after a value that was given. -/
theorem after {first : ExceptT ε m α} {next : α → ExceptT ε m β} {value : α} {cause : ε}
    (given : Gives first value) (stopped : Stops (next value) cause) :
    Stops (first >>= next) cause := by
  unfold Stops
  rw [ExceptT.run_bind]
  exact Yields.bind given stopped

end Stops

namespace Guards

/-- A value that has the property guards it. -/
theorem pure {value : α} {property : α → Prop} (holds : property value) :
    Guards (Pure.pure value : ExceptT ε m α) property :=
  Ensures.pure fun _ same => Except.ok.inj same ▸ holds

/-- A computation that only stops guards anything. -/
theorem throw (cause : ε) (property : α → Prop) :
    Guards (MonadExcept.throw cause : ExceptT ε m α) property :=
  Ensures.pure fun _ same => nomatch same

/-- What holds of every value is guarded. -/
theorem always (computation : ExceptT ε m α) {property : α → Prop}
    (holds : ∀ value, property value) : Guards computation property :=
  Ensures.always _ fun _ value _ => holds value

/-- What every continuation of a guarded value guards, the whole guards: where it stops, there is
nothing to show. -/
theorem bind {first : ExceptT ε m α} {next : α → ExceptT ε m β} {property : α → Prop}
    {final : β → Prop} (guarded : Guards first property)
    (continued : ∀ value, property value → Guards (next value) final) :
    Guards (first >>= next) final := by
  unfold Guards
  rw [ExceptT.run_bind]
  refine Ensures.bind guarded fun result holds => ?_
  cases result with
  | ok value => exact continued value (holds value rfl)
  | error cause => exact Ensures.pure fun _ same => nomatch same

/-- A first step that the property does not depend on. -/
theorem after (first : ExceptT ε m α) {next : α → ExceptT ε m β} {final : β → Prop}
    (continued : ∀ value, Guards (next value) final) : Guards (first >>= next) final :=
  bind (always first fun _ => trivial) fun value _ => continued value

/-- Renaming the causes of stops changes no value. -/
theorem adapt {computation : ExceptT ε m α} {property : α → Prop} (rename : ε → δ)
    (guarded : Guards computation property) :
    Guards (ExceptT.adapt rename computation) property := by
  refine Ensures.map guarded fun result holds value same => ?_
  cases result with
  | ok given =>
    cases same
    exact holds value rfl
  | error cause => cases same

end Guards

/-- A computation that goes through has what it guards, too, unless no value at all has both. -/
theorem Completes.and {computation : ExceptT ε m α} {property other : α → Prop}
    (completed : Completes computation property) (guarded : Guards computation other) (both : α)
    (holds : property both ∧ other both) :
    Completes computation fun value => property value ∧ other value := by
  have together := Ensures.and completed guarded (.ok both)
    ⟨⟨both, rfl, holds.1⟩, fun _ same => Except.ok.inj same ▸ holds.2⟩
  refine Ensures.mono together fun result ends => ?_
  obtain ⟨⟨value, rfl, has⟩, guards⟩ := ends
  exact ⟨value, rfl, has, guards value rfl⟩

namespace Checked

/-- A cut inside the buffer is made. -/
theorem split_gives {count : Nat} {bytes : Bytes} (inside : count ≤ bytes.length) :
    Gives (split count bytes : Checked m (Bytes × Bytes)) (bytes.take count, bytes.drop count) := by
  rw [split, if_pos inside]
  exact Gives.pure _

/-- Two pieces are split where they meet. -/
theorem split_append_gives {count : Nat} {first : Bytes} (width : first.length = count)
    (second : Bytes) :
    Gives (split count (first ++ second) : Checked m (Bytes × Bytes)) (first, second) := by
  have inside : count ≤ (first ++ second).length := by
    rw [List.length_append, width]
    exact Nat.le_add_right count second.length
  have given := split_gives (m := m) inside
  rwa [List.take_left' width, List.drop_left' width] at given

/-- A buffer of the same length takes the place of another. -/
theorem replace_gives {old fresh : Bytes} (width : fresh.length = old.length) :
    Gives (replace old fresh : Checked m Bytes) fresh := by
  rw [replace, if_pos width]
  exact Gives.pure _

/-- A difference that is not below zero is taken. -/
theorem subtract_gives {minuend subtrahend : Nat} (below : subtrahend ≤ minuend) :
    Gives (subtract minuend subtrahend : Checked m Nat) (minuend - subtrahend) := by
  rw [subtract, if_pos below]
  exact Gives.pure _

/-- A quotient by a positive number is taken. -/
theorem quotient_gives {divisor : Nat} (dividend : Nat) (positive : 0 < divisor) :
    Gives (quotient dividend divisor : Checked m Nat) (dividend / divisor) := by
  rw [quotient, if_neg (Nat.ne_of_gt positive)]
  exact Gives.pure _

/-- A remainder by a positive number is taken. -/
theorem remainder_gives {divisor : Nat} (dividend : Nat) (positive : 0 < divisor) :
    Gives (remainder dividend divisor : Checked m Nat) (dividend % divisor) := by
  rw [remainder, if_neg (Nat.ne_of_gt positive)]
  exact Gives.pure _

/-- A buffer is cut into blocks of a positive size. -/
theorem wholeBlocks_gives {size : Nat} (bytes : Bytes) (positive : 0 < size) :
    Gives (wholeBlocks size bytes : Checked m (List Bytes × Bytes))
      (Bytes.cut size (bytes.length / size) bytes, bytes.drop (bytes.length / size * size)) :=
  Gives.bind (quotient_gives _ positive) (Gives.pure _)

end Checked

end CipherEngine
