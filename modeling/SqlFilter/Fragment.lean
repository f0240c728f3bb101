import SqlFilter.Expr
import SqlFilter.Predicate

set_option relaxedAutoImplicit false
set_option autoImplicit false

/-!
# Fragments: the predicates of nodes

A node of a filter compiles to a fragment: one part for each of its operator maps and combinators
that says anything. The parts are joined by the conjunction under which the node stands. An `and` list
joins its items' terms without parentheses of their own, an `or` list is one group in parentheses,
and `not` and `nor` negate the fragment of their child.

## Design

Nodes are numbered in the order in which they are met: a node before its children, and among these
the items of `and`, the child of `not`, the child of `nor` and the items of `or`. The number of a
node is one more than the number of nodes before it, so compiling is a plain function of that count.

## Main definitions

* `Fragment` — the parts of a node, and whether the node asks to be an alternative.
* `Expr.compile` — the fragment of a node.
-/

namespace SqlFilter

/-- The predicate of a node, part by part. -/
structure Fragment where
  /-- What each operator map and combinator contributes. No part is empty. -/
  parts : List Chain
  /-- The node consists of a lone `or` or a lone `nor`: keys are joined to it as an alternative. -/
  isAlternative : Bool

namespace Fragment

/-- The fragment that says nothing. -/
def empty : Fragment := ⟨[], false⟩

instance : Inhabited Fragment := ⟨empty⟩

/-- The chain of all parts. -/
def chain (f : Fragment) : Chain := f.parts.flatten

/-- A fragment says nothing. -/
def isEmpty (f : Fragment) : Bool := f.parts.isEmpty

/-- The number of terms that stand in no parentheses. -/
def terms (f : Fragment) : Nat := f.chain.length

/-- The text of a fragment. -/
def text (naming : Naming) (f : Fragment) : String := f.chain.text naming

end Fragment

/-! ## Parts -/

namespace OperatorMaps

/-- One part for each map that has a field, with the conditions numbered through the node. -/
def partsFrom (c : Conjunction) (node : Nat) :
    Nat → List ((o : Operator) × FieldMap o.Operand) → List Chain
  | _, [] => []
  | position, ⟨o, m⟩ :: rest =>
    if m.isEmpty then partsFrom c node position rest
    else [(c, .conditions c (m.conditions o node position))] ::
      partsFrom c node (position + m.size) rest

/-- The parts of the maps of a node. -/
def parts (maps : OperatorMaps) (c : Conjunction) (node : Nat) : List Chain :=
  partsFrom c node 0 (maps.present Operator.compiled)

end OperatorMaps

namespace Chain

/-- A chain as part of a fragment, none if it is empty. -/
def spliced (c : Conjunction) (chain : Chain) : List Chain :=
  if chain.isEmpty then [] else [chain.linkedBy c]

/-- A chain in parentheses as part of a fragment. -/
def grouped (c : Conjunction) (chain : Chain) : List Chain :=
  if chain.isEmpty then [] else [[(c, .group chain)]]

/-- A negated chain as part of a fragment. -/
def negated (c : Conjunction) (chain : Chain) : List Chain :=
  if chain.isEmpty then [] else [[(c, .not chain)]]

end Chain

/-! ## Compiling -/

namespace Expr

mutual

/-- The fragment of a node that stands under a conjunction and after a number of other nodes. -/
def compile : Expr → Conjunction → Nat → Fragment
  | .node maps not nor and or, c, before =>
    let beforeAnd := before + 1
    let ands : Chain := match and with
      | none => []
      | some es => compileAll es .and beforeAnd
    let beforeNot := beforeAnd + (match and with | none => 0 | some es => nodesAll es)
    let nots : Chain := match not with
      | none => []
      | some e => (e.compile .and beforeNot).chain
    let beforeNor := beforeNot + (match not with | none => 0 | some e => e.nodes)
    let nors : Chain := match nor with
      | none => []
      | some e => (e.compile .or beforeNor).chain
    let beforeOr := beforeNor + (match nor with | none => 0 | some e => e.nodes)
    let ors : Chain := match or with
      | none => []
      | some es => compileAll es .or beforeOr
    let strict := maps.parts c (before + 1) ++ ands.spliced c ++ nots.negated c
    { parts := strict ++ nors.negated c ++ ors.grouped c
      isAlternative := strict.isEmpty &&
        (!nors.isEmpty && or.isNone || !ors.isEmpty && nor.isNone) }

/-- The chain of a list of nodes, joined by the conjunction under which they stand. -/
def compileAll : List Expr → Conjunction → Nat → List (Conjunction × Term)
  | [], _, _ => []
  | e :: es, c, before =>
    (e.compile c before).chain ++ compileAll es c (before + e.nodes)

end

end Expr

end SqlFilter
