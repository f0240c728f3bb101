import Mathlib.Algebra.GroupWithZero.Nat
import Mathlib.Data.List.Basic
import SqlFilter.Proofs.Parameters

set_option relaxedAutoImplicit false
set_option autoImplicit false

/-!
# Filters compiled one after the other

The nodes of a filter can be listed: a node first, then the nodes below its `and`, `not`, `nor` and
`or`. The number of a node is its place in this list, and filters that are compiled in one scope
number their nodes as if their lists stood one after the other. So the parameters of the scope can be
told from the lists alone: each operand is bound under a name of its own, and none is lost.

## Design

Numbers and positions are read off the lists by `zipIdx`. Nothing of the compiler is in this reading:
neither its count of nodes nor the fragments that it makes.

## Main definitions

* `Expr.preorder` — the nodes of a tree in the order of their numbers.
* `OperatorMaps.bindings` — what the node of a number binds.
* `Scope.filterAll`, `Scope.Holds` — a run of filters in one scope, and what a scope holds after it.

## Main results

* `Expr.length_preorder`, `Expr.conditions_eq_conditionsOf` — the number of nodes and the conditions of
  a tree, read off the list of its nodes.
* `Scope.Holds.filter`, `Scope.Holds.filterAll` — what a filter and what a run adds to a scope.
* `Scope.parameters_filterAll` — the parameters of a run.
-/

namespace SqlFilter

/-! ## What a node binds -/

/-- The operand that a column is compared with. A null test has none. -/
def Test.operand? : Test → Option Json
  | .compare _ operand => some operand
  | .null _ => none

/-- A condition binds its operand, if it has one. -/
theorem Condition.binding?_eq_map (c : Condition) :
    c.binding? = c.test.operand?.map fun operand => (c.parameter, operand) := by
  rw [Condition.binding?]
  cases c.test <;> rfl

/-- What the node of a number binds: the operand of each of its fields, named by the field, the number
of the node and the position of the field among all fields of the node. Null tests take a position and
bind nothing. -/
def OperatorMaps.bindings (maps : OperatorMaps) (number : Nat) : List (String × Json) :=
  maps.tests.zipIdx.filterMap fun t =>
    t.1.2.operand?.map fun operand => (parameterName t.1.1 number t.2, operand)

/-- The conditions of a node bind what the node binds. -/
theorem OperatorMaps.filterMap_numbered (maps : OperatorMaps) (number : Nat) :
    (numbered number 0 maps.tests).filterMap Condition.binding? = maps.bindings number := by
  rw [numbered, List.filterMap_map, bindings]
  exact List.filterMap_congr fun t _ => Condition.binding?_eq_map _

namespace Expr

/-! ## The nodes of a tree -/

mutual

/-- The nodes of a tree: the root, and then those below `and`, `not`, `nor` and `or`. -/
def preorder : Expr → List OperatorMaps
  | .node maps not nor and or =>
    maps :: ((match and with | none => [] | some es => preorderAll es)
      ++ (match not with | none => [] | some e => e.preorder)
      ++ (match nor with | none => [] | some e => e.preorder)
      ++ (match or with | none => [] | some es => preorderAll es))

/-- The nodes of a list of trees, tree by tree. -/
def preorderAll : List Expr → List OperatorMaps
  | [] => []
  | e :: es => e.preorder ++ preorderAll es

end

/-- The nodes of a tree, with the children of its root as lists. -/
theorem preorder_node (maps : OperatorMaps) (not nor : Option Expr)
    (and or : Option (List Expr)) : (Expr.node maps not nor and or).preorder =
      maps :: (preorderAll (and.getD []) ++ preorderAll not.toList ++ preorderAll nor.toList
        ++ preorderAll (or.getD [])) := by
  cases not <;> cases nor <;> cases and <;> cases or <;>
    simp only [preorder, preorderAll, Option.toList_none, Option.toList_some, Option.getD_none,
      Option.getD_some, List.append_nil, List.nil_append]

/-- The nodes of a list of trees. -/
theorem preorderAll_eq_flatMap (es : List Expr) : preorderAll es = es.flatMap preorder := by
  induction es with
  | nil => rfl
  | cons e es ih => rw [preorderAll, ih, List.flatMap_cons]

/-- The number of nodes of a list of trees. -/
theorem nodesAll_eq_sum (es : List Expr) : nodesAll es = (es.map nodes).sum := by
  induction es with
  | nil => rfl
  | cons e es ih => rw [nodesAll, ih, List.map_cons, List.sum_cons]

/-- As many nodes are listed for a list of trees as the trees have, if this holds of each tree. -/
private theorem length_preorderAll_of_forall (es : List Expr)
    (h : ∀ e ∈ es, e.preorder.length = e.nodes) : (preorderAll es).length = nodesAll es := by
  induction es with
  | nil => rfl
  | cons e es ih =>
    rw [preorderAll, List.length_append, h e (by simp), nodesAll,
      ih fun e' he' => h e' (by simp [he'])]

/-- As many nodes are listed as a tree has. -/
theorem length_preorder (e : Expr) : e.preorder.length = e.nodes := by
  induction e using inductionOn with
  | node maps not nor and or hand hnot hnor hor =>
    rw [preorder_node, nodes_node]
    simp only [List.length_cons, List.length_append, length_preorderAll_of_forall _ hand,
      length_preorderAll_of_forall _ hnot, length_preorderAll_of_forall _ hnor,
      length_preorderAll_of_forall _ hor]
    omega

/-- As many nodes are listed as the trees of a list have. -/
theorem length_preorderAll (es : List Expr) : (preorderAll es).length = nodesAll es :=
  length_preorderAll_of_forall es fun e _ => e.length_preorder

/-- The conditions of listed nodes, which have the numbers from one on. -/
def conditionsOf (list : List OperatorMaps) (number : Nat) : List Condition :=
  (list.zipIdx number).flatMap fun m => numbered m.2 0 m.1.tests

/-- The conditions of two lists of nodes, one after the other. -/
theorem conditionsOf_append (a b : List OperatorMaps) (number : Nat) :
    conditionsOf (a ++ b) number = conditionsOf a number ++ conditionsOf b (number + a.length) := by
  rw [conditionsOf, List.zipIdx_append, List.flatMap_append]
  rfl

/-- The conditions of a list of trees are those of their nodes, if this holds of each tree. -/
private theorem conditionsAll_eq_of_forall (es : List Expr)
    (h : ∀ e ∈ es, ∀ before, e.conditions before = conditionsOf e.preorder (before + 1))
    (before : Nat) : conditionsAll es before = conditionsOf (preorderAll es) (before + 1) := by
  induction es generalizing before with
  | nil => rfl
  | cons e es ih =>
    have hnumber : before + e.nodes + 1 = before + 1 + e.preorder.length := by
      rw [length_preorder]
      omega
    rw [conditionsAll, preorderAll, conditionsOf_append, h e (by simp),
      ih fun e' he' => h e' (by simp [he']), hnumber]

/-- **The conditions of a tree are those of its nodes**, numbered by their places in the list.

**Proof sketch.** Induction on the tree. The numbers before which the children of a node stand are
those of the nodes that are listed before them. -/
theorem conditions_eq_conditionsOf (e : Expr) :
    ∀ before, e.conditions before = conditionsOf e.preorder (before + 1) := by
  induction e using inductionOn with
  | node maps not nor and or hand hnot hnor hor =>
    intro before
    have hroot : conditionsOf [maps] (before + 1) = numbered (before + 1) 0 maps.tests := by
      simp [conditionsOf]
    have hnotNumber : beforeNot and before + 1 = before + 1 + 1 + nodesAll (and.getD []) := by
      rw [beforeNot, Nat.add_right_comm]
    have hnorNumber : beforeNor not and before + 1 =
        before + 1 + 1 + nodesAll (and.getD []) + nodesAll not.toList := by
      rw [beforeNor, Nat.add_right_comm, hnotNumber]
    have horNumber : beforeOr not nor and before + 1 =
        before + 1 + 1 + nodesAll (and.getD []) + nodesAll not.toList + nodesAll nor.toList := by
      rw [beforeOr, Nat.add_right_comm, hnorNumber]
    rw [conditions_node, conditionsAll_eq_of_forall _ hand, conditionsAll_eq_of_forall _ hnot,
      conditionsAll_eq_of_forall _ hnor, conditionsAll_eq_of_forall _ hor, hnotNumber, hnorNumber,
      horNumber, preorder_node, ← List.singleton_append, ← hroot]
    simp only [conditionsOf_append, List.append_assoc, List.length_singleton, length_preorderAll]

/-- The conditions of a list of trees are those of their nodes. -/
theorem conditionsAll_eq_conditionsOf (es : List Expr) (before : Nat) :
    conditionsAll es before = conditionsOf (preorderAll es) (before + 1) :=
  conditionsAll_eq_of_forall es (fun e _ => e.conditions_eq_conditionsOf) before

/-- The nodes of two lists of trees are as many as those of the first and those of the second. -/
theorem nodesAll_append (a b : List Expr) : nodesAll (a ++ b) = nodesAll a + nodesAll b := by
  rw [nodesAll_eq_sum, nodesAll_eq_sum, nodesAll_eq_sum, List.map_append, List.sum_append]

/-- The conditions of two lists of trees, one after the other. -/
theorem conditionsAll_append (a b : List Expr) (before : Nat) :
    conditionsAll (a ++ b) before = conditionsAll a before ++ conditionsAll b (before + nodesAll a) := by
  rw [conditionsAll_eq_conditionsOf, conditionsAll_eq_conditionsOf, conditionsAll_eq_conditionsOf,
    preorderAll_eq_flatMap, List.flatMap_append, ← preorderAll_eq_flatMap,
    ← preorderAll_eq_flatMap, conditionsOf_append, length_preorderAll, Nat.add_right_comm]

end Expr

/-! ## Runs of filters -/

namespace Scope

/-- Compiles filters one after the other, each under its conjunction. -/
def filterAll (s : Scope) (calls : List (Conjunction × Option Expr)) : Scope :=
  calls.foldl (fun s call => (s.filter call.1 call.2).2) s

/-- What a scope holds in which trees were compiled, one after the other, and nothing else. -/
structure Holds (s : Scope) (trees : List Expr) : Prop where
  visited : s.visited = Expr.nodesAll trees
  entries : s.params.entries = (Expr.conditionsAll trees 0).filterMap Condition.binding?

/-- A new scope holds nothing. -/
theorem holds_start (naming : Naming) : (start naming).Holds [] := ⟨rfl, rfl⟩

namespace Holds

variable {s : Scope} {trees : List Expr}

/-- **One filter** adds its tree to what a scope holds. An absent filter adds nothing.

**Proof sketch.** The conditions of all trees are placed, so no parameter of the new tree has the name
of one that is there, and all of them are appended. -/
theorem filter (h : s.Holds trees) (c : Conjunction) (filter : Option Expr) :
    (s.filter c filter).2.Holds (trees ++ filter.toList) := by
  cases filter with
  | none =>
    rw [Option.toList_none, List.append_nil]
    exact h
  | some e =>
    have hconditions : Expr.conditionsAll (trees ++ [e]) 0 =
        Expr.conditionsAll trees 0 ++ e.conditions s.visited := by
      rw [Expr.conditionsAll_append, Nat.zero_add, ← h.visited, Expr.conditionsAll,
        Expr.conditionsAll, List.append_nil]
    have hbindings : (e.compile c s.visited).chain.bindings =
        (e.conditions s.visited).filterMap Condition.binding? := by
      rw [Chain.bindings, Expr.conditions_compile]
    have hnodup : (s.params.fields ++ ((e.conditions s.visited).filterMap
        Condition.binding?).map Prod.fst).Nodup := by
      have hplaced := (Expr.placed_conditionsAll (trees ++ [e]) 0).nodup_bindings
      rw [hconditions, List.filterMap_append, List.map_append, ← h.entries] at hplaced
      exact hplaced
    refine ⟨?_, ?_⟩
    · rw [Option.toList_some, Expr.nodesAll_append, ← h.visited]
      simp [Scope.filter, Scope.bind, Expr.nodesAll]
    · rw [Option.toList_some, hconditions, List.filterMap_append, ← h.entries, ← hbindings]
      rw [← hbindings] at hnodup
      exact FieldMap.entries_insertAll_of_nodup s.params hnodup

/-- **A run of filters** adds its trees to what a scope holds. -/
theorem filterAll (h : s.Holds trees) (calls : List (Conjunction × Option Expr)) :
    (s.filterAll calls).Holds (trees ++ calls.filterMap Prod.snd) := by
  induction calls generalizing s trees with
  | nil =>
    rw [List.filterMap_nil, List.append_nil]
    exact h
  | cons call calls ih =>
    have hrest := ih (h.filter call.1 call.2)
    have htrees : trees ++ call.2.toList ++ calls.filterMap Prod.snd =
        trees ++ (call :: calls).filterMap Prod.snd := by
      rw [List.append_assoc, List.filterMap_cons]
      cases call.2 <;> rfl
    rw [htrees] at hrest
    exact hrest

end Holds

/-- **The parameters of filters that are compiled one after the other** in a new scope, whatever the
trees and their fields are and whatever conjunctions they stand under. List the nodes of all trees,
tree by tree.

- The scope has counted the nodes of all trees, and these are the nodes of the list.
- Its parameters are the operands of the nodes, in order: the node at the first place of the list has
  number one, and each of its fields but the null tests binds its operand under the name made of the
  field, that number and the position of the field.
- No two of these names are the same.

**Proof sketch.** Each filter appends the bindings of its tree, and the conditions of all trees are
placed: no two have the same node and position. -/
theorem parameters_filterAll (naming : Naming) (calls : List (Conjunction × Option Expr)) :
    let trees := calls.filterMap Prod.snd
    let nodes := trees.flatMap Expr.preorder
    let bindings := (nodes.zipIdx 1).flatMap fun m => m.1.bindings m.2
    let s := (Scope.start naming).filterAll calls
    s.visited = (trees.map Expr.nodes).sum ∧ s.visited = nodes.length ∧
      s.params.entries = bindings ∧ (bindings.map Prod.fst).Nodup := by
  intro trees nodes bindings s
  have hholds : s.Holds trees := (holds_start naming).filterAll calls
  have hnodes : Expr.preorderAll trees = nodes := Expr.preorderAll_eq_flatMap trees
  have hbindings : (Expr.conditionsAll trees 0).filterMap Condition.binding? = bindings := by
    rw [Expr.conditionsAll_eq_conditionsOf, hnodes, Expr.conditionsOf, List.filterMap_flatMap]
    exact List.flatMap_congr fun m _ => m.1.filterMap_numbered m.2
  refine ⟨?_, ?_, ?_, ?_⟩
  · rw [hholds.visited, Expr.nodesAll_eq_sum]
  · rw [hholds.visited, ← Expr.length_preorderAll, hnodes]
  · rw [hholds.entries, hbindings]
  · rw [← hbindings]
    exact (Expr.placed_conditionsAll trees 0).nodup_bindings

end Scope

end SqlFilter
