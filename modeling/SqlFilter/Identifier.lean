set_option relaxedAutoImplicit false
set_option autoImplicit false

/-!
# Identifiers of a statement

A table, its alias and its columns are written bare or in quotation marks, as the SQL dialect asks. A
quotation mark inside a quoted identifier is doubled. A column is always qualified by the alias.

## Main definitions

* `Quote` — the styles of quotation.
* `Quote.quoted` — an identifier in a style.
* `Naming`, `Naming.column` — the alias and the style of a statement, and its columns.
-/

namespace SqlFilter

/-- How identifiers are quoted. -/
inductive Quote where
  | none
  | backtick
  | double
deriving DecidableEq, Inhabited

namespace Quote

/-- The quotation mark of a style. -/
def mark : Quote → Option Char
  | .none => Option.none
  | .backtick => some '\x60'
  | .double => some '"'

/-- The name of a style in settings. -/
def name : Quote → String
  | .none => "none"
  | .backtick => "backtick"
  | .double => "double"

/-- The style of a name. -/
def ofName? (name : String) : Option Quote :=
  [Quote.none, .backtick, .double].find? fun q => q.name = name

/-- Writes every occurrence of a quotation mark twice. -/
def doubled (mark : Char) (cs : List Char) : List Char :=
  cs.flatMap fun c => if c = mark then [mark, mark] else [c]

/-- The characters of an identifier in quotation marks. -/
def enclosed (mark : Char) (cs : List Char) : List Char := mark :: (doubled mark cs ++ [mark])

/-- An identifier as it is written in a statement. -/
def quoted (q : Quote) (identifier : String) : String :=
  match q.mark with
  | Option.none => identifier
  | some m => String.ofList (enclosed m identifier.toList)

/-- A column of a table, qualified by the alias of the table. -/
def qualified (q : Quote) (table column : String) : String :=
  q.quoted table ++ "." ++ q.quoted column

end Quote

/-- How the columns of a statement are written. -/
structure Naming where
  /-- The alias of the table. -/
  table : String
  quote : Quote

/-- The column of a field. -/
def Naming.column (naming : Naming) (field : String) : String :=
  naming.quote.qualified naming.table field

/-! ## Parameters -/

/-- The name of the parameter that holds the operand of a field. The node and the position of the
operand among those of the node make it unique. -/
def parameterName (field : String) (node position : Nat) : String :=
  field ++ "_" ++ toString node ++ "_" ++ toString position

/-- The placeholder of a parameter. -/
def placeholder (name : String) : String := ":" ++ name

end SqlFilter
