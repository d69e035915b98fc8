/-
**The shelf of packs.**

Accepted packs are listed in the order in which their names first arrived.  A pack of a known name
takes the place of the earlier one.  The user may have selected one of the places; the selection
stays with the place when its pack is replaced.

Main definitions:

* `Shelf` — the packs and the selection;
* `Shelf.register`, `Shelf.select`, `Shelf.deselect` — the operations.

Main results:

* `Shelf.names_register` — the names keep their order, and a new one goes to the end;
* `Shelf.select_unknown` — selecting an unknown name changes nothing.
-/

import Shaderworks.Data.Table
import Shaderworks.Pack

set_option autoImplicit false

namespace Shaderworks

/-- Accepted packs in the order of their arrival, and the selected place. -/
structure Shelf where
  /-- The packs, by name. -/
  packs : Table String Pack := Table.empty
  /-- The selected place, counted from zero. -/
  selected : Option Nat := none

namespace Shelf

/-- The shelf without packs. -/
def empty : Shelf := {}

/-- The shelf with a pack put in the place of its name, or at the end. -/
def register (shelf : Shelf) (pack : Pack) : Shelf :=
  { shelf with packs := shelf.packs.put pack.name pack }

/-- The packs, in the order in which their names arrived. -/
def list (shelf : Shelf) : List Pack := shelf.packs.values

/-- The names, in the order in which they arrived. -/
def names (shelf : Shelf) : List String := shelf.packs.keys

/-- The pack of a name. -/
def get? (shelf : Shelf) (name : String) : Option Pack := shelf.packs.get? name

/-- The number of packs. -/
def size (shelf : Shelf) : Nat := shelf.packs.size

/-- Selects the place of a name.  An unknown name is refused. -/
def select (shelf : Shelf) (name : String) : Bool × Shelf :=
  match shelf.names.idxOf? name with
  | none => (false, shelf)
  | some place => (true, { shelf with selected := some place })

/-- Ends the selection. -/
def deselect (shelf : Shelf) : Shelf := { shelf with selected := none }

/-- The pack in the selected place. -/
def active (shelf : Shelf) : Option Pack := shelf.selected.bind fun place => shelf.list[place]?

/-- The names keep their order, and a new one goes to the end. -/
theorem names_register (shelf : Shelf) (pack : Pack) :
    (shelf.register pack).names =
      if pack.name ∈ shelf.names then shelf.names else shelf.names ++ [pack.name] :=
  Table.keys_put shelf.packs pack.name pack

/-- Selecting an unknown name changes nothing. -/
theorem select_unknown {shelf : Shelf} {name : String} (h : name ∉ shelf.names) :
    shelf.select name = (false, shelf) := by
  have : shelf.names.idxOf? name = none := List.idxOf?_eq_none_iff.2 h
  rw [select, this]

end Shelf

end Shaderworks
