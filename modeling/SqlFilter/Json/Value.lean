import SqlFilter.Json.Number

set_option relaxedAutoImplicit false
set_option autoImplicit false

/-!
# JSON values

A value as the rest of the library sees it. An object is the list of its members in the order in
which they are written.

## Main definitions

* `Json` — the values.
-/

namespace SqlFilter

/-- A JSON value. -/
inductive Json where
  | null
  | bool (value : Bool)
  | num (value : Json.Number)
  | str (value : String)
  | arr (items : List Json)
  | obj (members : List (String × Json))
deriving BEq, Inhabited

namespace Json

/-- An integer as a JSON value. -/
def ofInt (i : Int) : Json := .num (.int i)

/-- A JSON value, or `null` in its absence. -/
def ofOption {α : Type} (f : α → Json) : Option α → Json
  | none => .null
  | some a => f a

end Json

end SqlFilter
