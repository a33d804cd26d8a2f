import CipherEngine.Session
import CipherEngine.Proofs.Handle.Reach
import CipherEngine.Proofs.Registry.Ledger
import Mathlib.Data.Multiset.Bind

/-!
# What a session holds

The pins that a session holds are those on its shelf and those of its live handles. A
command takes pins and gives them back as it moves them about: between it and the registry
the ledger always balances, and no pin is dropped on the way or given back twice.
-/
namespace CipherEngine

variable {m : Type → Type}

/-! ## Shelves -/

namespace Shelf

variable {α : Type} {shelf : Shelf α} {name : String} {value : α}

/-- No name is used twice. -/
def Distinct (shelf : Shelf α) : Prop := (shelf.map Prod.fst).Nodup

/-- The values on the shelf. -/
def values (shelf : Shelf α) : Multiset α := ↑(shelf.map Prod.snd)

/-- A value that is put somewhere is there beside what lies in the other places. -/
theorem values_put (shelf : Shelf α) (name : String) (value : α) :
    (shelf.put name value).values = value ::ₘ (shelf.without name).values := rfl

/-- Names stay apart when a place is emptied. -/
theorem Distinct.without (distinct : shelf.Distinct) (name : String) :
    (shelf.without name).Distinct :=
  List.Nodup.sublist (List.Sublist.map _ List.filter_sublist) distinct

/-- And they do when a place is filled, which is emptied first. -/
theorem Distinct.put (distinct : shelf.Distinct) (name : String) (value : α) :
    (shelf.put name value).Distinct := by
  refine List.nodup_cons.mpr ⟨fun member => ?_, distinct.without name⟩
  obtain ⟨place, left, same⟩ := List.mem_map.mp member
  exact absurd same (by simpa using (List.mem_filter.mp left).2)

/-- An empty place is not in the way. -/
theorem without_of_empty (empty : shelf.at? name = none) : shelf.without name = shelf := by
  rw [at?, Option.map_eq_none_iff, List.find?_eq_none] at empty
  exact List.filter_eq_self.mpr fun place present => by simpa using empty place present

/-- What is under a name is one value, and the others are under other names. -/
theorem Distinct.values_of_at? (distinct : shelf.Distinct) (found : shelf.at? name = some value) :
    shelf.values = value ::ₘ (shelf.without name).values := by
  induction shelf with
  | nil => cases found
  | cons first rest inductionHypothesis =>
    obtain ⟨fresh, restDistinct⟩ := List.nodup_cons.mp distinct
    by_cases here : first.1 = name
    · obtain rfl : first.2 = value := by simpa [at?, here] using found
      have elsewhere : Shelf.without rest name = rest := by
        refine List.filter_eq_self.mpr fun place present => ?_
        have other : place.1 ≠ name := fun same =>
          fresh (List.mem_map.mpr ⟨place, present, same.trans here.symm⟩)
        simpa using other
      have skipped : Shelf.without (first :: rest) name = Shelf.without rest name := by
        simp [Shelf.without, here]
      rw [skipped, elsewhere]
      rfl
    · have later : Shelf.at? rest name = some value := by simpa [at?, here] using found
      have kept : Shelf.without (first :: rest) name = first :: Shelf.without rest name := by
        simp [Shelf.without, here]
      rw [kept]
      change first.2 ::ₘ values rest = value ::ₘ first.2 ::ₘ values (Shelf.without rest name)
      rw [inductionHypothesis restDistinct later, Multiset.cons_swap]

end Shelf

/-! ## Handles -/

namespace Handle

/-- The pins that a handle holds: its own, if it is live. -/
def held : Handle m → Multiset (Pin m)
  | .live handle => {handle.pin}
  | .closed .. => 0

variable [Monad m]

/-- A handle that is opened holds the pin that was taken for it. If opening fails, the pin
has been given back. -/
theorem openOn_leads (registry : Registry m) (held : Multiset (Pin m)) (id : AlgorithmId)
    (mode : Mode) (flags : Flags) (machine : Machine) :
    Ledger.Leads ⟨registry, held⟩ ⟨(openOn registry id mode flags machine).registry,
      match (openOn registry id mode flags machine).value with
      | .error _ => held
      | .ok handle => handle.held + held⟩ := by
  have looked := Ledger.Leads.lookupId registry held id
  rw [openOn]
  cases found : (registry.lookupId id).value with
  | none =>
    rw [found] at looked
    exact looked
  | some pin =>
    rw [found] at looked
    have dropped := looked.trans (Ledger.Leads.dropPin _ held pin)
    dsimp only
    split
    · exact dropped
    · split
      · exact dropped
      · exact looked

/-- A handle that is closed gives its pin back. -/
theorem close_leads (registry : Registry m) (held : Multiset (Pin m)) (handle : Handle m) :
    Ledger.Leads ⟨registry, handle.held + held⟩ ⟨(close registry handle).registry,
      match (close registry handle).value with
      | .error _ => handle.held + held
      | .ok after => after.held + held⟩ := by
  cases handle with
  | closed id mode flags => exact .refl _
  | live handle =>
    have dropped := Ledger.Leads.dropPin registry held handle.pin
    rw [← Multiset.singleton_add] at dropped
    change Ledger.Leads _ ⟨_, 0 + held⟩
    rw [zero_add]
    exact dropped

/-- So does one that is let go, unless it has been closed. -/
theorem discard_leads (registry : Registry m) (held : Multiset (Pin m)) (handle : Handle m) :
    Ledger.Leads ⟨registry, handle.held + held⟩ ⟨(discard registry handle).registry, held⟩ := by
  cases handle with
  | closed id mode flags =>
    change Ledger.Leads ⟨registry, 0 + held⟩ ⟨registry, held⟩
    rw [zero_add]
    exact .refl _
  | live handle =>
    have closed := close_leads registry held (.live handle)
    change Ledger.Leads _ ⟨_, 0 + held⟩ at closed
    rw [zero_add] at closed
    exact closed

/-- A request keeps the pin. -/
theorem respond_held [LawfulMonad m] (handle : Handle m) (request : Request) :
    Ensures (handle.respond request) fun outcome => outcome.handle.held = handle.held := by
  cases handle with
  | closed id mode flags => exact Ensures.pure rfl
  | live handle =>
    refine (LiveHandle.respond_keeps handle request).mono fun outcome kept => ?_
    obtain ⟨next, live, keeps⟩ := kept
    rw [live]
    exact congrArg (fun pin => ({pin} : Multiset (Pin m))) keeps.shape.pin

end Handle

/-! ## Sessions -/

namespace Session

/-- The pins that the session holds, on its shelf and through its live handles. -/
def held (session : Session m) : Multiset (Pin m) :=
  session.pins.values + session.handles.values.bind Handle.held

/-- The session's registry and what it holds. -/
def ledger (session : Session m) : Ledger m := ⟨session.registry, session.held⟩

/-- No two pins lie in one place, and no two handles. -/
structure Tidy (session : Session m) : Prop where
  pins : session.pins.Distinct
  handles : session.handles.Distinct

variable {session : Session m}

/-- What is held besides the pin in a place. -/
theorem Tidy.held_without_pin (tidy : session.Tidy) {place : String} {pin : Pin m}
    (found : session.pins.at? place = some pin) :
    session.held = pin ::ₘ { session with pins := session.pins.without place }.held := by
  rw [held, held, tidy.pins.values_of_at? found, Multiset.cons_add]

/-- A pin in a place is held. -/
theorem Tidy.mem_held (tidy : session.Tidy) {place : String} {pin : Pin m}
    (found : session.pins.at? place = some pin) : pin ∈ session.held := by
  rw [tidy.held_without_pin found]
  exact Multiset.mem_cons_self _ _

/-- What is held besides what the handle in a place holds. -/
theorem Tidy.held_without_handle (tidy : session.Tidy) {place : String} {handle : Handle m}
    (found : session.handles.at? place = some handle) :
    session.held =
      handle.held + { session with handles := session.handles.without place }.held := by
  rw [held, held, tidy.handles.values_of_at? found, Multiset.cons_bind, add_left_comm]

/-- What is held after a handle was put in a place. -/
theorem held_put_handle (session : Session m) (place : String) (handle : Handle m) :
    { session with handles := session.handles.put place handle }.held =
      handle.held + { session with handles := session.handles.without place }.held := by
  rw [held, held, Shelf.values_put, Multiset.cons_bind, add_left_comm]

/-- What is held after a handle took the place of another. -/
theorem Tidy.held_replace_handle (tidy : session.Tidy) {place : String} {handle next : Handle m}
    (found : session.handles.at? place = some handle) (same : next.held = handle.held) :
    { session with handles := session.handles.put place next }.held = session.held := by
  rw [held_put_handle, same, tidy.held_without_handle found]

/-- A session with some further pins becomes another: its places stay in order, and if the
ledger balances, moves lead from one to the other. -/
def Becomes [Monad m] (session : Session m) (further : Multiset (Pin m)) (next : Session m) :
    Prop :=
  session.Tidy → next.Tidy ∧ Ledger.Leads ⟨session.registry, further + session.held⟩ next.ledger

variable [Monad m]

/-- What changes the registry alone. -/
theorem becomes_of_registry {registry : Registry m}
    (leads : ∀ held, Ledger.Leads ⟨session.registry, held⟩ ⟨registry, held⟩) :
    session.Becomes 0 { session with registry } := by
  intro tidy
  refine ⟨⟨tidy.pins, tidy.handles⟩, ?_⟩
  rw [zero_add]
  exact leads session.held

/-- Nothing happens. -/
theorem becomes_self (session : Session m) : session.Becomes 0 session :=
  becomes_of_registry fun held => .refl ⟨session.registry, held⟩

/-- What changes the registry first. -/
theorem Becomes.after {registry : Registry m} {further : Multiset (Pin m)} {next : Session m}
    (becomes : Becomes { session with registry } further next)
    (leads : Ledger.Leads ⟨session.registry, session.held⟩
      ⟨registry, further + session.held⟩) : session.Becomes 0 next := by
  intro tidy
  obtain ⟨nextTidy, continued⟩ := becomes ⟨tidy.pins, tidy.handles⟩
  refine ⟨nextTidy, ?_⟩
  rw [zero_add]
  exact leads.trans continued

/-- A pin that is given back. -/
theorem giveBack_becomes (session : Session m) (pin : Pin m) :
    session.Becomes {pin} (session.giveBack pin).1 := fun tidy =>
  ⟨⟨tidy.pins, tidy.handles⟩, Ledger.Leads.dropPin session.registry session.held pin⟩

/-- A pin that is put in a place, or given back. -/
theorem settle_becomes (session : Session m) (pin : Pin m) (keepAs : Option String) :
    session.Becomes {pin} (session.settle pin keepAs).1 := by
  cases keepAs with
  | none => exact giveBack_becomes session pin
  | some place =>
    intro tidy
    rw [settle]
    have keptTidy : Tidy { session with pins := session.pins.put place pin } :=
      ⟨tidy.pins.put place pin, tidy.handles⟩
    cases found : session.pins.at? place with
    | none =>
      have kept : { session with pins := session.pins.put place pin }.held =
          {pin} + session.held := by
        rw [held, held, Shelf.values_put, Shelf.without_of_empty found, Multiset.cons_add,
          Multiset.singleton_add]
      refine ⟨keptTidy, ?_⟩
      rw [← kept]
      exact .refl _
    | some old =>
      -- For a moment both pins are held; the old one is given back last.
      have kept : {pin} + session.held =
          {old} + { session with pins := session.pins.put place pin }.held := by
        rw [tidy.held_without_pin found, held, held, Shelf.values_put]
        simp only [Multiset.singleton_add, Multiset.cons_add]
        exact Multiset.cons_swap _ _ _
      rw [kept]
      exact giveBack_becomes _ old keptTidy

/-- A pin that is shown and then settled. -/
theorem present_becomes (session : Session m) (pin : Pin m) (keepAs : Option String)
    (events : List Event) : session.Becomes {pin} (session.present pin keepAs events).session :=
  settle_becomes session pin keepAs

/-- A command on the pin in a place. -/
theorem withPin_becomes (session : Session m) (place : String) {command : Pin m → Step m}
    (becomes : ∀ pin, session.pins.at? place = some pin →
      session.Becomes 0 (command pin).session) :
    session.Becomes 0 (session.withPin place command).session := by
  rw [withPin]
  split
  · exact becomes_self session
  · next pin found => exact becomes pin found

/-- A registration. -/
theorem register_becomes (session : Session m) (algorithm : Algorithm m)
    (keepAs : Option String) : session.Becomes 0 (session.register algorithm keepAs).session := by
  have leads := Ledger.Leads.register session.registry session.held algorithm
  rw [register]
  cases registered : (session.registry.register algorithm).value with
  | error cause =>
    rw [registered] at leads
    refine Becomes.after (becomes_self _) ?_
    rw [zero_add]
    exact leads
  | ok pin =>
    rw [registered] at leads
    refine Becomes.after (present_becomes _ pin keepAs _) ?_
    rw [Multiset.singleton_add]
    exact leads

/-- A lookup. -/
theorem lookup_becomes (session : Session m) (target : Target) (keepAs : Option String) :
    session.Becomes 0 (session.lookup target keepAs).session := by
  have leads : Ledger.Leads ⟨session.registry, session.held⟩
      ⟨(find session.registry target).registry,
        (find session.registry target).value.elim session.held (· ::ₘ session.held)⟩ := by
    cases target with
    | id id => exact .lookupId _ _ id
    | name name => exact .lookupName _ _ name
    | oid oid => exact .lookupOid _ _ oid
  rw [lookup]
  cases looked : (find session.registry target).value with
  | none =>
    rw [looked] at leads
    refine Becomes.after (becomes_self _) ?_
    rw [zero_add]
    exact leads
  | some pin =>
    rw [looked] at leads
    refine Becomes.after (present_becomes _ pin keepAs _) ?_
    rw [Multiset.singleton_add]
    exact leads

/-- A copy of a pin. -/
theorem copyPin_becomes (session : Session m) (place : String) (keepAs : Option String) :
    session.Becomes 0 (session.withPin place fun pin =>
      { session with registry := (session.registry.copyPin pin).registry }.present
        pin keepAs []).session := by
  refine withPin_becomes session place fun pin found tidy => ?_
  refine Becomes.after (present_becomes _ pin keepAs _) ?_ tidy
  rw [Multiset.singleton_add]
  exact .copyPin session.registry (tidy.mem_held found)

/-- A pin that is let go. -/
theorem letGo_becomes (session : Session m) (place : String)
    {release : Registry m → Pin m → Registry.Effect m Unit}
    (leads : ∀ registry held pin,
      Ledger.Leads ⟨registry, pin ::ₘ held⟩ ⟨(release registry pin).registry, held⟩) :
    session.Becomes 0 (session.letGo place release).session := by
  refine withPin_becomes session place fun pin found tidy => ?_
  refine ⟨⟨tidy.pins.without place, tidy.handles⟩, ?_⟩
  rw [zero_add, tidy.held_without_pin found]
  exact leads _ _ _

/-- A handle that is opened, and then the one that is closed for it. -/
theorem openHandle_becomes (session : Session m) (place : String) (id : AlgorithmId)
    (mode : Mode) (flags : Flags) (machine : Machine) :
    session.Becomes 0 (session.openHandle place id mode flags machine).session := by
  have leads := Handle.openOn_leads session.registry session.held id mode flags machine
  intro tidy
  rw [openHandle]
  cases opened : (Handle.openOn session.registry id mode flags machine).value with
  | error cause =>
    rw [opened] at leads
    refine ⟨⟨tidy.pins, tidy.handles⟩, ?_⟩
    rw [zero_add]
    exact leads
  | ok handle =>
    rw [opened] at leads
    dsimp only
    cases found : session.handles.at? place with
    | none =>
      refine ⟨⟨tidy.pins, tidy.handles.put place handle⟩, ?_⟩
      have kept : { session with handles := session.handles.put place handle }.held =
          handle.held + session.held := by
        rw [held_put_handle, Shelf.without_of_empty found]
      rw [zero_add]
      change Ledger.Leads _ ⟨_, { session with handles := session.handles.put place handle }.held⟩
      rw [kept]
      exact leads
    | some old =>
      refine ⟨⟨tidy.pins, tidy.handles.put place handle⟩, ?_⟩
      have kept : handle.held + session.held =
          old.held + { session with handles := session.handles.put place handle }.held := by
        rw [held_put_handle, tidy.held_without_handle found, add_left_comm]
      rw [zero_add]
      dsimp only at leads
      rw [kept] at leads
      exact leads.trans (Handle.discard_leads _ _ old)

/-- A handle that is let go. -/
theorem discardHandle_becomes (session : Session m) (place : String) :
    session.Becomes 0 (session.discardHandle place).session := by
  rw [discardHandle]
  split
  · exact becomes_self session
  · next handle found =>
    intro tidy
    refine ⟨⟨tidy.pins, tidy.handles.without place⟩, ?_⟩
    rw [zero_add, tidy.held_without_handle found]
    exact Handle.discard_leads _ _ handle

/-- A handle that is closed. -/
theorem close_becomes (session : Session m) (place : String) :
    session.Becomes 0 (session.close place).session := by
  rw [close]
  split
  · exact becomes_self session
  · next handle found =>
    intro tidy
    have leads := Handle.close_leads session.registry
      { session with handles := session.handles.without place }.held handle
    rw [← tidy.held_without_handle found] at leads
    dsimp only
    cases closed : (Handle.close session.registry handle).value with
    | error cause =>
      rw [closed] at leads
      refine ⟨⟨tidy.pins, tidy.handles⟩, ?_⟩
      rw [zero_add]
      exact leads
    | ok left =>
      rw [closed] at leads
      refine ⟨⟨tidy.pins, tidy.handles.put place left⟩, ?_⟩
      rw [zero_add]
      change Ledger.Leads _ ⟨_, { session with handles := session.handles.put place left }.held⟩
      rw [held_put_handle]
      exact leads

variable [LawfulMonad m]

/-- A request to a handle. -/
theorem request_becomes (session : Session m) (place : String) (request : Request) :
    Ensures (session.request place request) fun step => session.Becomes 0 step.session := by
  rw [Session.request]
  split
  · exact Ensures.pure (becomes_self session)
  · next handle found =>
    refine (Handle.respond_held handle request).bind fun outcome same => Ensures.pure ?_
    intro tidy
    refine ⟨⟨tidy.pins, tidy.handles.put place outcome.handle⟩, ?_⟩
    rw [zero_add, ledger, tidy.held_replace_handle found same]
    exact .refl _

/-- Every command. -/
theorem perform_becomes (session : Session m) (command : Command m) :
    Ensures (session.perform command) fun step => session.Becomes 0 step.session := by
  cases command with
  | register algorithm keepAs => exact Ensures.pure (register_becomes session algorithm keepAs)
  | lookup target keepAs => exact Ensures.pure (lookup_becomes session target keepAs)
  | copyPin pin keepAs => exact Ensures.pure (copyPin_becomes session pin keepAs)
  | withdraw pin => exact Ensures.pure (letGo_becomes session pin Ledger.Leads.withdraw)
  | dropPin pin => exact Ensures.pure (letGo_becomes session pin Ledger.Leads.dropPin)
  | entry pin | entryAlgorithm pin | describePin pin =>
    exact Ensures.pure (withPin_becomes session pin fun _ _ => becomes_self session)
  | list | describeRegistry | resolve name | modeOfOid oid | nameOf id =>
    exact Ensures.pure (becomes_of_registry fun held => .inspect _ held _)
  | copyRegistry | closeNothing => exact Ensures.pure (becomes_self session)
  | disable id => exact Ensures.pure (becomes_of_registry fun held => .disable _ held id)
  | info id query => exact Ensures.pure (becomes_of_registry fun held => .ask _ held id _)
  | keyLength id | blockLength id | availability id =>
    exact Ensures.pure (becomes_of_registry fun held => .ask _ held id _)
  | openHandle place subject mode flags machine =>
    refine Ensures.pure ?_
    cases session.subjectId subject with
    | none => exact becomes_self session
    | some id => exact openHandle_becomes session place id mode flags machine
  | discardHandle place => exact Ensures.pure (discardHandle_becomes session place)
  | close place => exact Ensures.pure (close_becomes session place)
  | request place request => exact request_becomes session place request
  | describeHandle place =>
    refine Ensures.pure ?_
    cases session.handles.at? place <;> exact becomes_self session

end Session

end CipherEngine
