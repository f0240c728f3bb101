import SqlFilter.Json.Printer
import SqlFilter.Placeholder

set_option relaxedAutoImplicit false
set_option autoImplicit false

/-!
# Databases

A statement is carried out by a database engine. What the engine does with it is left open: a database is
whatever answers statements. What it is handed is not: a text with question marks, and a cell for each
value that is bound.

## Main definitions

* `Cell`, `Json.cell` — a value as an engine takes it, and the one that a JSON value is bound as.
* `Database`, `Database.answer` — a database that is open, and what it answers to a bound statement.
-/

namespace SqlFilter

/-- A value as a database engine takes it. -/
inductive Cell where
  | null
  | bool (value : Bool)
  | integer (value : Int)
  | real (value : Float)
  | text (value : String)
deriving DecidableEq, Inhabited

/-- How a JSON value is bound. An engine has no integers beyond 63 bits, so a larger one is bound as its
digits; arrays and objects are bound as their texts. -/
def Json.cell : Json → Cell
  | .null => .null
  | .bool b => .bool b
  | .num (.int i) =>
    if i < 0x8000000000000000 then .integer i else .text (String.ofList (Json.integerChars i))
  | .num (.double f) => .real f
  | .str s => .text s
  | .arr items => .text (Json.arr items).compact
  | .obj members => .text (Json.obj members).compact

/-- A database that is open for reading. -/
structure Database where
  /-- The integer in the first column of the first row that a statement with question marks yields, with
  a cell for each of them; or why there is none. -/
  fetch : String → List Cell → Except String Int

/-- What a database answers to a bound statement. -/
def Database.answer (database : Database) (b : BoundStatement) : Except String Int :=
  database.fetch b.sql (b.values.map Json.cell)

end SqlFilter
