import SqlFilter.FieldMap
import SqlFilter.Json.Value
import SqlFilter.Text.Blank

set_option relaxedAutoImplicit false
set_option autoImplicit false

/-!
# From named to positional placeholders

Conditions are written with named placeholders such as `:name`; a database binds values by position.
Expanding a statement replaces each named placeholder by a question mark, or by as many as its list
has items, and collects the values in order.

## Design

Blanks, parentheses and commas delimit the words of a statement. A placeholder never crosses a
delimiter and reaches to the end of its word, so a word holds at most one: it starts at the first
colon that some character follows. A statement is therefore expanded word by word.

## Main definitions

* `Words`, `Words.ofChars` — a text cut at its delimiters.
* `Word.name?` — the name of the placeholder of a word.
* `BindError` — why a statement cannot be bound.
* `expand` — the statement with question marks, and its values.
-/

namespace SqlFilter

/-! ## Words -/

/-- The characters that end the name of a placeholder. -/
def isDelimiter (c : Char) : Bool := Text.isBlank c || c = '(' || c = ')' || c = ','

/-- A text cut at its delimiters: the first word, and then every delimiter with the word after it.
Words may be empty. -/
structure Words where
  first : List Char
  rest : List (Char × List Char)

namespace Words

/-- Puts a character before a text. -/
def cons (c : Char) (w : Words) : Words :=
  if isDelimiter c then ⟨[], (c, w.first) :: w.rest⟩ else ⟨c :: w.first, w.rest⟩

/-- Cuts a text at its delimiters. -/
def ofChars (cs : List Char) : Words := cs.foldr cons ⟨[], []⟩

/-- The text of words and delimiters. -/
def chars (w : Words) : List Char := w.first ++ w.rest.flatMap fun p => p.1 :: p.2

end Words

namespace Word

/-- The characters before the first colon, or all of them. -/
def beforeName (word : List Char) : List Char := word.takeWhile fun c => c ≠ ':'

/-- The name of the placeholder of a word: what follows its first colon, if that is not empty. -/
def name? (word : List Char) : Option (List Char) :=
  match word.dropWhile fun c => c ≠ ':' with
  | [] => none
  | [_] => none
  | _ :: c :: rest => some (c :: rest)

end Word

/-! ## Expansion -/

/-- Why a statement cannot be bound. -/
inductive BindError where
  /-- No value is given for a placeholder. -/
  | unknownParameter (name : String)
  /-- The list given for a placeholder is empty. -/
  | emptyList (name : String)
deriving DecidableEq

/-- The text of a binding error. -/
def BindError.message : BindError → String
  | .unknownParameter name => "No value bound for parameter '" ++ name ++ "'"
  | .emptyList name => "Membership list for parameter '" ++ name ++ "' is empty"

/-- Question marks, separated by commas. -/
def marks (count : Nat) : List Char := [',', ' '].intercalate (List.replicate count ['?'])

/-- The question marks and the values that a placeholder is replaced by. -/
def expandName (params : FieldMap Json) (name : String) : Except BindError (List Char × List Json) :=
  match params.get? name with
  | none => .error (.unknownParameter name)
  | some (.arr []) => .error (.emptyList name)
  | some (.arr (v :: rest)) => .ok (marks (v :: rest).length, v :: rest)
  | some v => .ok (['?'], [v])

/-- A word with its placeholder replaced, and the values bound there. -/
def expandWord (params : FieldMap Json) (word : List Char) :
    Except BindError (List Char × List Json) :=
  match Word.name? word with
  | none => .ok (word, [])
  | some name =>
    match expandName params (String.ofList name) with
    | .error e => .error e
    | .ok (cs, values) => .ok (Word.beforeName word ++ cs, values)

/-- Words with their placeholders replaced, each after its delimiter. -/
def expandRest (params : FieldMap Json) :
    List (Char × List Char) → Except BindError (List Char × List Json)
  | [] => .ok ([], [])
  | (d, word) :: rest =>
    match expandWord params word with
    | .error e => .error e
    | .ok (cs, values) =>
      match expandRest params rest with
      | .error e => .error e
      | .ok (more, others) => .ok (d :: cs ++ more, values ++ others)

/-- A text with its placeholders replaced, and the values in order. The first placeholder that
cannot be bound decides the error. -/
def expandChars (params : FieldMap Json) (cs : List Char) :
    Except BindError (List Char × List Json) :=
  let words := Words.ofChars cs
  match expandWord params words.first with
  | .error e => .error e
  | .ok (out, values) =>
    match expandRest params words.rest with
    | .error e => .error e
    | .ok (more, others) => .ok (out ++ more, values ++ others)

/-- A statement with question marks, and the values to bind to them. -/
structure BoundStatement where
  sql : String
  values : List Json

/-- Replaces the named placeholders of a statement. -/
def expand (params : FieldMap Json) (sql : String) : Except BindError BoundStatement :=
  match expandChars params sql.toList with
  | .error e => .error e
  | .ok (cs, values) => .ok ⟨String.ofList cs, values⟩

end SqlFilter
