import SqlFilter.Operator

set_option relaxedAutoImplicit false
set_option autoImplicit false

/-!
# Filter expressions

A filter expression is a tree. A node tests fields with operators and combines other nodes: it may
deny one (`not`, `nor`) and join lists of them (`and`, `or`).

## Main definitions

* `Expr` — the trees.
* `Expr.depth`, `Expr.nodes`, `Expr.fields` — nesting, size and fields of a tree.
* `Expr.decode`, `Expr.toJson` — a tree as a document.
-/

namespace SqlFilter

/-- A filter expression. Each combinator may be absent, and a list may be present and empty. -/
inductive Expr where
  | node (maps : OperatorMaps) (not nor : Option Expr) (and or : Option (List Expr))

namespace Expr

/-- The expression that asks for nothing. -/
def empty : Expr := .node .none none none none none

instance : Inhabited Expr := ⟨empty⟩

/-- A node with neither an operator nor a combinator. -/
def isEmpty : Expr → Bool
  | .node maps not nor and or =>
    maps.isNone && not.isNone && nor.isNone && and.isNone && or.isNone

/-! ## Measures -/

mutual

/-- The number of nodes on the longest path from the root. -/
def depth : Expr → Nat
  | .node _ not nor and or =>
    1 + max (max (match not with | none => 0 | some e => e.depth)
          (match nor with | none => 0 | some e => e.depth))
        (max (match and with | none => 0 | some es => depthAll es)
          (match or with | none => 0 | some es => depthAll es))

/-- The greatest depth in a list, zero for an empty one. -/
def depthAll : List Expr → Nat
  | [] => 0
  | e :: es => max e.depth (depthAll es)

end

mutual

/-- The number of nodes of a tree. -/
def nodes : Expr → Nat
  | .node _ not nor and or =>
    1 + (match and with | none => 0 | some es => nodesAll es)
      + (match not with | none => 0 | some e => e.nodes)
      + (match nor with | none => 0 | some e => e.nodes)
      + (match or with | none => 0 | some es => nodesAll es)

/-- The number of nodes of a list of trees. -/
def nodesAll : List Expr → Nat
  | [] => 0
  | e :: es => e.nodes + nodesAll es

end

mutual

/-- Every field that is tested anywhere in a tree, as often as it is tested: first those of the node,
then those below `not`, `nor`, `and` and `or`. -/
def fields : Expr → List String
  | .node maps not nor and or =>
    maps.fields ++ (match not with | none => [] | some e => e.fields)
      ++ (match nor with | none => [] | some e => e.fields)
      ++ (match and with | none => [] | some es => fieldsAll es)
      ++ (match or with | none => [] | some es => fieldsAll es)

/-- The fields tested in a list of trees. -/
def fieldsAll : List Expr → List String
  | [] => []
  | e :: es => e.fields ++ fieldsAll es

end

/-! ## Expressions as documents -/

/-- The members of a node: the operators and then the combinators. This is also the order of the
items where a node is written as an array. -/
def memberNames : List String :=
  Operator.declared.map Operator.name ++ ["not", "nor", "and", "or"]

/-- The node that a record describes, with decoders for the child of `not` and `nor` and for the
list of `and` and `or`. -/
def ofRecord? (budget : Nat) (child : Json.Document → Option Expr)
    (children : Json.Document → Option (List Expr)) (record : Json.Document.Record) :
    Option Expr := do
  let maps ← OperatorMaps.decode budget record
  let not ← Json.Decoder.optional record "not" child
  let nor ← Json.Decoder.optional record "nor" child
  let and ← Json.Decoder.optional record "and" children
  let or ← Json.Decoder.optional record "or" children
  return .node maps not nor and or

/-- Decodes an expression. A node takes one opening bracket and a list of nodes another one, so the
budget also bounds the recursion. -/
def decode : Json.Decoder Expr
  | 0, _ => none
  | budget + 1, d =>
    let children : Json.Document → Option (List Expr) :=
      match budget with
      | 0 => fun _ => none
      | budget + 1 => fun
        | .arr items => items.mapM (decode budget)
        | _ => none
    (d.record? memberNames false).bind (ofRecord? budget (decode budget) children)

mutual

/-- The members that an expression is written as. What is absent is left out. -/
def toMembers : Expr → List (String × Json)
  | .node maps not nor and or =>
    maps.toMembers ++ (match not with | none => [] | some e => [("not", .obj e.toMembers)])
      ++ (match nor with | none => [] | some e => [("nor", .obj e.toMembers)])
      ++ (match and with | none => [] | some es => [("and", .arr (toJsonAll es))])
      ++ (match or with | none => [] | some es => [("or", .arr (toJsonAll es))])

/-- The expressions of a list as JSON values. -/
def toJsonAll : List Expr → List Json
  | [] => []
  | e :: es => .obj e.toMembers :: toJsonAll es

end

/-- An expression as a JSON value. -/
def toJson (e : Expr) : Json := .obj e.toMembers

end Expr

end SqlFilter
