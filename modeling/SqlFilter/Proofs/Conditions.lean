import Mathlib.Data.List.Perm.Basic
import SqlFilter.Proofs.Tree

set_option relaxedAutoImplicit false
set_option autoImplicit false

/-!
# The conditions of a filter

What a filter asks can be listed from the tree alone, without the predicate that it compiles to:
node after node, operator after operator, field after field. A predicate has exactly these
conditions, in this order, and their fields are the fields of the tree.

## Design

The order of the conditions is that of the text. `Expr.fields` lists the same fields in another
order: it visits the operators as they are declared and the children of `not` and `nor` before the
items of `and`. So the two lists agree as multisets, node by node.

## Main definitions

* `OperatorMaps.tests`, `Expr.conditions` — what a node and a tree ask, in order.
* `Expr.bindings`, `Expr.parameters` — the parameters that a tree binds.

## Main results

* `Expr.conditions_compile` — a predicate has the conditions of its tree.
* `Expr.fields_conditions_perm` — the fields of these conditions are those of the tree, as often.
-/

namespace SqlFilter

/-! ## What a tree asks -/

/-- What an operator asks of the fields of its map. -/
def FieldMap.tests (operator : Operator) {k : Kind} (m : FieldMap k.Operand) :
    List (String × Test) :=
  m.entries.map fun e => (e.1, k.test operator e.2)

/-- What maps ask, operator by operator and field by field. -/
def mapTests (maps : List ((o : Operator) × FieldMap o.Operand)) : List (String × Test) :=
  maps.flatMap fun m => m.2.tests m.1

/-- What a node asks, in the order in which conditions are generated. -/
def OperatorMaps.tests (maps : OperatorMaps) : List (String × Test) :=
  mapTests (maps.present Operator.compiled)

/-- The conditions of a node for what it asks, numbered from a position on. -/
def numbered (node position : Nat) (tests : List (String × Test)) : List Condition :=
  (tests.zipIdx position).map fun t => ⟨t.1.1, node, t.2, t.1.2⟩

namespace Expr

mutual

/-- The conditions of a tree that stands after a number of other nodes: those of the root, and then
those below `and`, `not`, `nor` and `or`. -/
def conditions : Expr → Nat → List Condition
  | .node maps not nor and or, before =>
    numbered (before + 1) 0 maps.tests
      ++ (match and with | none => [] | some es => conditionsAll es (before + 1))
      ++ (match not with | none => [] | some e => e.conditions (beforeNot and before))
      ++ (match nor with | none => [] | some e => e.conditions (beforeNor not and before))
      ++ (match or with | none => [] | some es => conditionsAll es (beforeOr not nor and before))

/-- The conditions of a list of trees. -/
def conditionsAll : List Expr → Nat → List Condition
  | [], _ => []
  | e :: es, before => e.conditions before ++ conditionsAll es (before + e.nodes)

end

/-- The parameters that a tree binds when it is the only one, with their values. -/
def bindings (e : Expr) : List (String × Json) := (e.conditions 0).filterMap Condition.binding?

/-- The names of the parameters that a tree binds when it is the only one. -/
def parameters (e : Expr) : List String := e.bindings.map Prod.fst

/-- The conditions of a node, with its children as lists. -/
theorem conditions_node (maps : OperatorMaps) (not nor : Option Expr)
    (and or : Option (List Expr)) (before : Nat) :
    (Expr.node maps not nor and or).conditions before =
      numbered (before + 1) 0 maps.tests ++ conditionsAll (and.getD []) (before + 1)
        ++ conditionsAll not.toList (beforeNot and before)
        ++ conditionsAll nor.toList (beforeNor not and before)
        ++ conditionsAll (or.getD []) (beforeOr not nor and before) := by
  cases not <;> cases nor <;> cases and <;> cases or <;>
    simp only [conditions, conditionsAll, Option.toList_none, Option.toList_some, Option.getD_none,
      Option.getD_some, List.append_nil]

end Expr

/-! ## Predicates have the conditions of their trees -/

/-- Conditions of two lists of tests are numbered one after the other. -/
theorem numbered_append (node position : Nat) (a b : List (String × Test)) :
    numbered node position (a ++ b) =
      numbered node position a ++ numbered node (position + a.length) b := by
  simp [numbered, List.zipIdx_append]

/-- The conditions of a map are its tests with their numbers. -/
theorem FieldMap.conditions_eq_numbered (operator : Operator) {k : Kind} (m : FieldMap k.Operand)
    (node position : Nat) :
    m.conditions operator node position = numbered node position (m.tests operator) := by
  simp [FieldMap.conditions, numbered, FieldMap.tests, List.zipIdx_map, Function.comp_def]

/-- The parts of maps hold the conditions of their tests. An empty map has no part and no tests. -/
theorem OperatorMaps.conditions_partsFrom (c : Conjunction) (node : Nat)
    (maps : List ((o : Operator) × FieldMap o.Operand)) (position : Nat) :
    Chain.conditions (partsFrom c node position maps).flatten =
      numbered node position (mapTests maps) := by
  induction maps generalizing position with
  | nil => rfl
  | cons m rest ih =>
    obtain ⟨o, m⟩ := m
    have hlength : (m.tests o).length = m.size := by simp [FieldMap.tests, FieldMap.size]
    have hcons : mapTests (⟨o, m⟩ :: rest) = m.tests o ++ mapTests rest := rfl
    rw [partsFrom, hcons, numbered_append, hlength]
    split
    · rename_i hempty
      have hm : m.entries = [] := by simpa [FieldMap.isEmpty] using hempty
      rw [ih]
      simp [FieldMap.tests, FieldMap.size, hm, numbered]
    · rw [List.flatten_cons, Chain.conditions_append, ih, Chain.conditions_cons,
        Chain.conditions_nil, List.append_nil, Term.allConditions_conditions,
        FieldMap.conditions_eq_numbered]

/-- The parts of a node's maps hold the conditions of the node. -/
theorem OperatorMaps.conditions_parts (maps : OperatorMaps) (c : Conjunction) (node : Nat) :
    Chain.conditions (maps.parts c node).flatten = numbered node 0 maps.tests :=
  OperatorMaps.conditions_partsFrom c node _ 0

namespace Chain

/-- Splicing keeps the conditions. -/
@[simp] theorem conditions_spliced (c : Conjunction) (chain : Chain) :
    Chain.conditions (chain.spliced c).flatten = chain.conditions := by
  cases chain <;> simp [spliced]

/-- Grouping keeps the conditions. -/
@[simp] theorem conditions_grouped (c : Conjunction) (chain : Chain) :
    Chain.conditions (chain.grouped c).flatten = chain.conditions := by
  cases chain <;> simp [grouped]

/-- Negating keeps the conditions. -/
@[simp] theorem conditions_negated (c : Conjunction) (chain : Chain) :
    Chain.conditions (chain.negated c).flatten = chain.conditions := by
  cases chain <;> simp [negated]

end Chain

namespace Expr

/-- A list of predicates has the conditions of a list of trees if each predicate has those of its
tree. -/
private theorem conditions_compileAll_of_forall (es : List Expr) (c : Conjunction)
    (h : ∀ e ∈ es, ∀ c before, (e.compile c before).chain.conditions = e.conditions before)
    (before : Nat) : Chain.conditions (compileAll es c before) = conditionsAll es before := by
  induction es generalizing before with
  | nil => rfl
  | cons e es ih =>
    rw [compileAll_cons, Chain.conditions_append, h e (by simp), conditionsAll,
      ih fun e' he' => h e' (by simp [he'])]

/-- **A predicate has the conditions of its tree**, in the same order and with the same numbers,
whatever conjunction the tree stands under.

**Proof sketch.** Induction on the tree. A combinator keeps the conditions of the chain that it
splices, groups or negates, and the chain of a fragment is the chain of its parts. -/
theorem conditions_compile (e : Expr) : ∀ (c : Conjunction) (before : Nat),
    (e.compile c before).chain.conditions = e.conditions before := by
  induction e using inductionOn with
  | node maps not nor and or hand hnot hnor hor =>
    intro c before
    have hall (es : List Expr) (h : ∀ e ∈ es, ∀ c before,
        (e.compile c before).chain.conditions = e.conditions before) (c : Conjunction)
        (before : Nat) := conditions_compileAll_of_forall es c h before
    rw [compile_node, Fragment.chain, strictParts, conditions_node]
    simp only [List.flatten_append, Chain.conditions_append, OperatorMaps.conditions_parts,
      Chain.conditions_spliced, Chain.conditions_negated, Chain.conditions_grouped,
      hall _ hand, hall _ hnot, hall _ hnor, hall _ hor]

end Expr

/-! ## The fields of the conditions -/

/-- Numbering keeps what can be told from fields and tests. -/
theorem map_numbered {β : Type} (f : String × Test → β) (node position : Nat)
    (tests : List (String × Test)) :
    (numbered node position tests).map (fun c => f (c.field, c.test)) = tests.map f := by
  rw [numbered, List.map_map]
  calc (tests.zipIdx position).map
        ((fun c : Condition => f (c.field, c.test)) ∘ fun t => ⟨t.1.1, node, t.2, t.1.2⟩)
      = ((tests.zipIdx position).map Prod.fst).map f := by
        rw [List.map_map]
        rfl
    _ = tests.map f := by rw [List.zipIdx_map_fst]

/-- Numbering keeps the fields. -/
theorem map_field_numbered (node position : Nat) (tests : List (String × Test)) :
    (numbered node position tests).map Condition.field = tests.map Prod.fst :=
  map_numbered Prod.fst node position tests

/-- The fields of the tests of maps are those of the maps. -/
theorem map_fst_mapTests (maps : List ((o : Operator) × FieldMap o.Operand)) :
    (mapTests maps).map Prod.fst = maps.flatMap fun m => m.2.fields := by
  simp [mapTests, List.map_flatMap, FieldMap.tests, FieldMap.fields, Function.comp_def]

/-- The operators are generated in another order than declared, but all of them. -/
theorem Operator.compiled_perm_declared : Operator.compiled.Perm Operator.declared := by decide

/-- A node asks about each of its fields once for every map that has the field. -/
theorem OperatorMaps.fields_tests_perm (maps : OperatorMaps) :
    (maps.tests.map Prod.fst).Perm maps.fields := by
  rw [OperatorMaps.tests, map_fst_mapTests]
  exact (Operator.compiled_perm_declared.filterMap _).flatMap_right _

namespace Expr

/-- The fields of the conditions of a list of trees are those of the trees, if this holds of each
tree. -/
private theorem fields_conditionsAll_perm_of_forall (es : List Expr)
    (h : ∀ e ∈ es, ∀ before, ((e.conditions before).map Condition.field).Perm e.fields)
    (before : Nat) : ((conditionsAll es before).map Condition.field).Perm (fieldsAll es) := by
  induction es generalizing before with
  | nil => exact List.Perm.nil
  | cons e es ih =>
    rw [conditionsAll, List.map_append, fieldsAll]
    exact (h e (by simp) before).append (ih (fun e' he' => h e' (by simp [he'])) _)

/-- **The conditions of a tree ask about the fields of the tree**, each as often as the tree tests it.

**Proof sketch.** Induction on the tree. The lists of the root agree because the operators of the two
traversals are the same up to order; those of the children agree by the induction hypotheses and
stand in another order. -/
theorem fields_conditions_perm (e : Expr) :
    ∀ before, ((e.conditions before).map Condition.field).Perm e.fields := by
  induction e using inductionOn with
  | node maps not nor and or hand hnot hnor hor =>
    intro before
    have hroot := maps.fields_tests_perm
    have hands := fields_conditionsAll_perm_of_forall _ hand (before + 1)
    have hnots := fields_conditionsAll_perm_of_forall _ hnot (beforeNot and before)
    have hnors := fields_conditionsAll_perm_of_forall _ hnor (beforeNor not and before)
    have hors := fields_conditionsAll_perm_of_forall _ hor (beforeOr not nor and before)
    rw [conditions_node, fields_node]
    simp only [List.map_append, map_field_numbered]
    refine List.Perm.append ?_ hors
    refine (((hroot.append hands).append hnots).append hnors).trans ?_
    -- the items of `and` come before the other children here, and after them among the fields
    simp only [List.append_assoc]
    refine List.Perm.append_left _ ?_
    rw [← List.append_assoc (fieldsAll not.toList)]
    exact List.perm_append_comm

/-- A tree in which no field is tested has no conditions. -/
theorem conditions_eq_nil {e : Expr} (h : e.fields = []) (before : Nat) : e.conditions before = [] := by
  have hperm := e.fields_conditions_perm before
  rw [h] at hperm
  exact List.map_eq_nil_iff.mp hperm.eq_nil

end Expr

end SqlFilter
