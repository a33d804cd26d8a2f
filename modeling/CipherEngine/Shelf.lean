/-!
# Named places

A shelf holds values under names, one value to a name. Putting a value under a
name that is in use takes the place of the old one.
-/
namespace CipherEngine

/-- Values under names. -/
abbrev Shelf (α : Type) := List (String × α)

namespace Shelf

variable {α : Type}

/-- The value under a name. -/
def at? (shelf : Shelf α) (name : String) : Option α :=
  (shelf.find? fun place => place.1 = name).map Prod.snd

/-- The shelf without what is under a name. -/
def without (shelf : Shelf α) (name : String) : Shelf α :=
  shelf.filter fun place => place.1 ≠ name

/-- The shelf with a value under a name. -/
def put (shelf : Shelf α) (name : String) (value : α) : Shelf α :=
  (name, value) :: shelf.without name

/-- What was put under a name is there. -/
theorem at?_put_self (shelf : Shelf α) (name : String) (value : α) :
    (shelf.put name value).at? name = some value := by
  simp [put, at?]

/-- What is under other names stays when a place is cleared. -/
theorem at?_without_of_ne (shelf : Shelf α) {name other : String} (differ : other ≠ name) :
    (shelf.without name).at? other = shelf.at? other := by
  simp only [without, at?, List.find?_filter]
  congr 2
  funext place
  by_cases here : place.1 = other
  · simp [here, differ]
  · simp [here]

/-- Nothing is left under a name whose place is cleared. -/
theorem at?_without_self (shelf : Shelf α) (name : String) :
    (shelf.without name).at? name = none := by
  simp [without, at?]

/-- What is under other names stays. -/
theorem at?_put_of_ne (shelf : Shelf α) {name other : String} (value : α) (differ : other ≠ name) :
    (shelf.put name value).at? other = shelf.at? other := by
  rw [← at?_without_of_ne shelf differ]
  simp [put, at?, Ne.symm differ]

end Shelf

end CipherEngine
