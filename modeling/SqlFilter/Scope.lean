import SqlFilter.Fragment
import SqlFilter.Query

set_option relaxedAutoImplicit false
set_option autoImplicit false

/-!
# Scopes

A scope is where the parts of one statement are compiled: they share the naming of columns, the
parameters and the count of nodes. Keys and any number of filters can be compiled in one scope.

## Main definitions

* `Scope` — naming, parameters and node count.
* `Scope.filter`, `Scope.keys`, `Scope.map` — what can be compiled in a scope.
* `joinKeys` — the text of keys and filter together.
-/

namespace SqlFilter

/-- The parameters of a statement, by name. -/
abbrev Params : Type := FieldMap Json

/-- What the parts of one statement share. -/
structure Scope where
  naming : Naming
  params : Params
  visited : Nat

namespace Scope

/-- A scope in which nothing has been compiled yet. -/
def start (naming : Naming) : Scope := ⟨naming, .empty, 0⟩

/-- Adds parameters. One of a name that is there already replaces the value. -/
def bind (s : Scope) (bindings : List (String × Json)) : Scope :=
  { s with params := s.params.insertAll bindings }

/-- Counts one more node, whose number is the new count. -/
def enter (s : Scope) : Nat × Scope := (s.visited + 1, { s with visited := s.visited + 1 })

/-- Compiles a filter under a conjunction. An absent filter says nothing and counts no node. -/
def filter (s : Scope) (c : Conjunction) : Option Expr → Fragment × Scope
  | none => (.empty, s)
  | some e =>
    let fragment := e.compile c s.visited
    (fragment, { s with visited := s.visited + e.nodes }.bind fragment.chain.bindings)

/-- The text of one key: the column equals the parameter of the same name. -/
def keyText (naming : Naming) (field : String) : String :=
  naming.column field ++ " = " ++ placeholder field

/-- The text of all keys. -/
def keysText (naming : Naming) (keys : Keys) : String :=
  Conjunction.and.separator.intercalate (keys.fields.map (keyText naming))

/-- Compiles keys, each bound under its own name. -/
def keys (s : Scope) (keys : Keys) : String × Scope :=
  (keysText s.naming keys, s.bind (keys.entries.map fun e => (e.1, e.2.toJson)))

/-- Compiles one map of a node, whose conditions are numbered from a position on. -/
def map (s : Scope) (operator : Operator) {k : Kind} (m : FieldMap k.Operand) (c : Conjunction)
    (node position : Nat) : Option Term × Scope :=
  if m.isEmpty then (none, s)
  else
    let term := Term.conditions c (m.conditions operator node position)
    (some term, s.bind (Chain.bindings [(c, term)]))

end Scope

/-- The text of keys and filter together. Where one is missing it is the other; otherwise they are
joined, as alternatives if the filter asks for that. -/
def joinKeys (naming : Naming) (keysText : String) (filter : Fragment) : String :=
  let filterText := filter.text naming
  if keysText.isEmpty then filterText
  else if filterText.isEmpty then keysText
  else
    let c := if filter.isAlternative then Conjunction.or else .and
    keysText ++ c.separator ++ filterText

end SqlFilter
