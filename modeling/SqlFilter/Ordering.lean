import SqlFilter.FieldMap
import SqlFilter.Identifier

set_option relaxedAutoImplicit false
set_option autoImplicit false

/-!
# Sort columns

The order of a query gives each field a number. Its sign is the direction: ascending when it is not
negative. Its magnitude can be the priority of the field; without that the fields sort in the order
in which they are written.

## Main definitions

* `Priority` — how the fields of an order are ranked.
* `SortColumn`, `sortColumns` — the columns to sort by.
-/

namespace SqlFilter

/-- How the fields of an order are ranked. -/
inductive Priority where
  /-- As they are written. -/
  | insertion
  /-- The largest magnitude first, and as they are written among equal ones. -/
  | magnitude
deriving DecidableEq, Inhabited

namespace Priority

/-- The name of a priority in settings. -/
def name : Priority → String
  | .insertion => "insertion"
  | .magnitude => "magnitude"

/-- The priority of a name. -/
def ofName? (name : String) : Option Priority :=
  [Priority.insertion, .magnitude].find? fun p => p.name = name

/-- The entries of an order, ranked. -/
def ranked : Priority → List (String × Int) → List (String × Int)
  | .insertion, entries => entries
  | .magnitude, entries => entries.mergeSort fun a b => b.2.natAbs ≤ a.2.natAbs

end Priority

/-- A column to sort by. -/
structure SortColumn where
  column : String
  ascending : Bool
deriving DecidableEq

/-- The columns to sort by. -/
def sortColumns (naming : Naming) (priority : Priority) : Option (FieldMap Int) → List SortColumn
  | none => []
  | some order =>
    (priority.ranked order.entries).map fun e => ⟨naming.column e.1, 0 ≤ e.2⟩

end SqlFilter
