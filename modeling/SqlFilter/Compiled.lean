import SqlFilter.Ordering
import SqlFilter.Scope

set_option relaxedAutoImplicit false
set_option autoImplicit false

/-!
# Compiled queries

A query compiles to the text of its condition, the parameters of that text, the columns to sort by
and the hints on paging.

## Main definitions

* `CompilerOptions` — the settings of the compiler.
* `Compiled`, `Query.compile` — the result of compiling keys and a query.
-/

namespace SqlFilter

/-! ## Settings -/

/-- The settings of the compiler. -/
structure CompilerOptions where
  /-- The alias of the table. -/
  table : String
  quote : Quote
  priority : Priority
deriving DecidableEq

namespace CompilerOptions

/-- The settings in force when none are given. -/
def default : CompilerOptions := ⟨"target", .none, .insertion⟩

instance : Inhabited CompilerOptions := ⟨default⟩

/-- How columns are written. -/
def naming (o : CompilerOptions) : Naming := ⟨o.table, o.quote⟩

open Json.Decoder in
/-- Decodes settings. A missing one has its default. -/
def decode : Json.Decoder CompilerOptions
  | budget + 1, d => do
    let record ← d.record? ["alias", "quote", "order_priority"] false
    let table ← withDefault record "alias" default.table (string budget)
    let quote ← withDefault record "quote" default.quote (choice Quote.ofName? budget)
    let priority ← withDefault record "order_priority" default.priority
      (choice Priority.ofName? budget)
    return ⟨table, quote, priority⟩
  | 0, _ => none

/-- Settings as a JSON value. -/
def toJson (o : CompilerOptions) : Json :=
  .obj [("alias", .str o.table), ("quote", .str o.quote.name),
    ("order_priority", .str o.priority.name)]

end CompilerOptions

/-! ## Compiling -/

/-- A compiled query. -/
structure Compiled where
  /-- The condition, empty if it matches everything. -/
  condition : String
  params : Params
  order : List SortColumn
  skip : Option Int
  take : Option Int

namespace Compiled

/-- A compiled query as a JSON value. -/
def toJson (c : Compiled) : Json :=
  .obj [("where", .str c.condition), ("params", .obj c.params.entries),
    ("order", .arr (c.order.map fun s =>
      .obj [("column", .str s.column), ("asc", .bool s.ascending)])),
    ("skip", Json.ofOption Json.ofInt c.skip), ("take", Json.ofOption Json.ofInt c.take)]

end Compiled

/-- Compiles keys and a query. The keys come first in the condition and among the parameters. -/
def Query.compile (options : CompilerOptions) (keys : Keys) (q : Query) : Compiled :=
  let naming := options.naming
  let (keysText, scope) := (Scope.start naming).keys keys
  let (fragment, scope) := scope.filter .and (some q.filter)
  { condition := joinKeys naming keysText fragment
    params := scope.params
    order := sortColumns naming options.priority q.order
    skip := q.skip
    take := q.take }

end SqlFilter
