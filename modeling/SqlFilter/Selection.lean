import SqlFilter.Compiled
import SqlFilter.Placeholder

set_option relaxedAutoImplicit false
set_option autoImplicit false

/-!
# Statements of a selection

A selection is a table filtered by a compiled query. There are three statements over it: one that
fetches a page of rows, one that counts the rows, and one that asks whether there is any.

## Main definitions

* `Paging`, `Paging.resolve` — how many rows a page has.
* `Selection.page`, `Selection.count`, `Selection.exist` — the statements, with their values.
-/

namespace SqlFilter

/-! ## Paging -/

/-- The size of a page that asks for none, and the largest size. -/
structure Paging where
  defaultTake : Int
  maxTake : Int
deriving DecidableEq

namespace Paging

/-- The paging in force when none is set. -/
def default : Paging := ⟨50, 500⟩

instance : Inhabited Paging := ⟨default⟩

/-- The number of rows to fetch: what is asked for if that is positive, else the default, and never
more than the largest size. -/
def resolveTake (p : Paging) (take : Option Int) : Int :=
  min ((take.filter fun t => 0 < t).getD p.defaultTake) p.maxTake

/-- The number of rows to skip: what is asked for if that is not negative, else none. -/
def resolveSkip (skip : Option Int) : Int := (skip.filter fun s => 0 ≤ s).getD 0

open Json.Decoder in
/-- Decodes paging. A missing number has its default. -/
def decode : Json.Decoder Paging
  | budget + 1, d => do
    let record ← d.record? ["default_take", "max_take"] false
    let defaultTake ← withDefault record "default_take" default.defaultTake (integer budget)
    let maxTake ← withDefault record "max_take" default.maxTake (integer budget)
    return ⟨defaultTake, maxTake⟩
  | 0, _ => none

/-- Paging as a JSON value. -/
def toJson (p : Paging) : Json :=
  .obj [("default_take", Json.ofInt p.defaultTake), ("max_take", Json.ofInt p.maxTake)]

end Paging

/-! ## Statements -/

/-- A table filtered by a compiled query. -/
structure Selection where
  table : String
  naming : Naming
  compiled : Compiled

namespace Selection

/-- The name of the parameter for the number of rows to fetch. -/
def takeName : String := "__take"

/-- The name of the parameter for the number of rows to skip. -/
def skipName : String := "__skip"

/-- The alias of the table, as it is written. -/
def quotedAlias (s : Selection) : String := s.naming.quote.quoted s.naming.table

/-- The table with its alias, and the condition if there is one. -/
def source (s : Selection) : String :=
  "FROM " ++ s.naming.quote.quoted s.table ++ " AS " ++ s.quotedAlias ++
    if s.compiled.condition.isEmpty then "" else " WHERE " ++ s.compiled.condition

/-- The text of a sort column. -/
def sortText (c : SortColumn) : String := c.column ++ if c.ascending then " ASC" else " DESC"

/-- The columns to sort by, if there are any. -/
def orderBy (s : Selection) : String :=
  if s.compiled.order.isEmpty then ""
  else " ORDER BY " ++ ", ".intercalate (s.compiled.order.map sortText)

/-- The statement for a page, with named placeholders. -/
def pageText (s : Selection) : String :=
  "SELECT " ++ s.quotedAlias ++ ".* " ++ s.source ++ s.orderBy ++ " LIMIT " ++
    placeholder takeName ++ " OFFSET " ++ placeholder skipName

/-- The parameters of the statement for a page. -/
def pageParams (s : Selection) (paging : Paging) : Params :=
  (s.compiled.params.insert takeName (Json.ofInt (paging.resolveTake s.compiled.take))).insert
    skipName (Json.ofInt (Paging.resolveSkip s.compiled.skip))

/-- The statement that fetches a page of rows. -/
def page (s : Selection) (paging : Paging) : Except BindError BoundStatement :=
  expand (s.pageParams paging) s.pageText

/-- The statement that counts all rows, with named placeholders. -/
def countText (s : Selection) : String := "SELECT COUNT(*) " ++ s.source

/-- The statement that counts all rows. -/
def count (s : Selection) : Except BindError BoundStatement :=
  expand s.compiled.params s.countText

/-- The statement that asks whether there is a row, with named placeholders. -/
def existText (s : Selection) : String := "SELECT EXISTS(SELECT 1 " ++ s.source ++ ")"

/-- The statement that asks whether there is a row. -/
def exist (s : Selection) : Except BindError BoundStatement :=
  expand s.compiled.params s.existText

end Selection

end SqlFilter
