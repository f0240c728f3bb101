import Mathlib.Data.List.Basic
import SqlFilter.Fragment

set_option relaxedAutoImplicit false
set_option autoImplicit false

/-!
# Induction on filters and on predicates

Filters and predicates are trees whose nodes hold lists of nodes, so the induction that comes with
them also runs through lists and options. Here each has one principle with one hypothesis for all
the nodes below, and the functions of a filter are restated so that an absent combinator is an empty
list: what holds of lists of filters then covers all four combinators at once.

## Main results

* `Expr.inductionOn`, `Term.inductionOn` — induction with a hypothesis for every node below.
* `Expr.compile_node` — the fragment of a node, with its children as lists.
* `Expr.nodes_node`, `Expr.fields_node` — size and fields of a node in the same form.
-/

namespace SqlFilter

/-! ## Predicates -/

/-- **Induction on a term**: a hypothesis for every term of the chain below. -/
@[elab_as_elim]
theorem Term.inductionOn {motive : Term → Prop} (t : Term)
    (conditions : ∀ joined list, motive (.conditions joined list))
    (group : ∀ chain : Chain, (∀ link ∈ chain, motive link.2) → motive (.group chain))
    (not : ∀ chain : Chain, (∀ link ∈ chain, motive link.2) → motive (.not chain)) :
    motive t := by
  refine Term.rec (motive_1 := motive) (motive_2 := fun chain => ∀ link ∈ chain, motive link.2)
    (motive_3 := fun link => motive link.2) conditions group not ?_ ?_ ?_ t
  · intro link hlink
    simp at hlink
  · intro head tail hhead htail
    simp only [List.mem_cons, forall_eq_or_imp]
    exact ⟨hhead, htail⟩
  · intro c t ht
    exact ht

/-- The conditions of a term of joined conditions. -/
@[simp] theorem Term.allConditions_conditions (joined : Conjunction) (list : List Condition) :
    (Term.conditions joined list).allConditions = list := by rw [Term.allConditions]

/-- The conditions of a group are those of its chain. -/
@[simp] theorem Term.allConditions_group (chain : Chain) :
    (Term.group chain).allConditions = chain.conditions := by
  rw [Term.allConditions]
  rfl

/-- The conditions of a negation are those of its chain. -/
@[simp] theorem Term.allConditions_not (chain : Chain) :
    (Term.not chain).allConditions = chain.conditions := by
  rw [Term.allConditions]
  rfl

namespace Chain

/-- The empty chain has no conditions. -/
@[simp] theorem conditions_nil : Chain.conditions [] = [] := rfl

/-- The conditions of a chain, term by term. -/
@[simp] theorem conditions_cons (link : Conjunction × Term) (chain : Chain) :
    Chain.conditions (link :: chain) = link.2.allConditions ++ Chain.conditions chain := by
  rw [conditions, chainConditions]
  rfl

/-- The conditions of two chains are those of the first and then those of the second. -/
@[simp] theorem conditions_append (a b : Chain) :
    Chain.conditions (a ++ b) = Chain.conditions a ++ Chain.conditions b := by
  induction a with
  | nil => rfl
  | cons link rest ih => rw [List.cons_append, conditions_cons, conditions_cons, ih,
      List.append_assoc]

/-- The first link of a chain is no part of its conditions. -/
@[simp] theorem conditions_linkedBy (c : Conjunction) (chain : Chain) :
    Chain.conditions (chain.linkedBy c) = chain.conditions := by
  cases chain with
  | nil => rfl
  | cons link rest => simp [linkedBy]

/-- Relinking keeps the number of terms. -/
@[simp] theorem length_linkedBy (c : Conjunction) (chain : Chain) :
    (chain.linkedBy c).length = chain.length := by
  cases chain <;> rfl

end Chain

/-! ## Filters -/

namespace Expr

/-- **Induction on a filter**: a hypothesis for every child, whatever combinator it stands below. -/
@[elab_as_elim]
theorem inductionOn {motive : Expr → Prop} (e : Expr)
    (node : ∀ (maps : OperatorMaps) (not nor : Option Expr) (and or : Option (List Expr)),
      (∀ e ∈ and.getD [], motive e) → (∀ e ∈ not.toList, motive e) →
      (∀ e ∈ nor.toList, motive e) → (∀ e ∈ or.getD [], motive e) →
      motive (.node maps not nor and or)) : motive e := by
  refine Expr.rec (motive_1 := motive) (motive_2 := fun child => ∀ e ∈ child.toList, motive e)
    (motive_3 := fun list => ∀ e ∈ list.getD [], motive e)
    (motive_4 := fun list => ∀ e ∈ list, motive e) ?_ ?_ ?_ ?_ ?_ ?_ ?_ e
  · intro maps not nor and or hnot hnor hand hor
    exact node maps not nor and or hand hnot hnor hor
  · simp
  · intro child hchild
    simpa using hchild
  · simp
  · intro list hlist
    simpa using hlist
  · simp
  · intro head tail hhead htail
    simp only [List.mem_cons, forall_eq_or_imp]
    exact ⟨hhead, htail⟩

variable (maps : OperatorMaps) (not nor : Option Expr) (and or : Option (List Expr))

/-- The number of nodes met before the child of `not`. -/
def beforeNot (and : Option (List Expr)) (before : Nat) : Nat :=
  before + 1 + nodesAll (and.getD [])

/-- The number of nodes met before the child of `nor`. -/
def beforeNor (not : Option Expr) (and : Option (List Expr)) (before : Nat) : Nat :=
  beforeNot and before + nodesAll not.toList

/-- The number of nodes met before the items of `or`. -/
def beforeOr (not nor : Option Expr) (and : Option (List Expr)) (before : Nat) : Nat :=
  beforeNor not and before + nodesAll nor.toList

/-- What a node says on its own or with a conjunction of children: the parts of its operator maps, of
`and` and of `not`. -/
def strictParts (maps : OperatorMaps) (not : Option Expr) (and : Option (List Expr))
    (c : Conjunction) (before : Nat) : List Chain :=
  maps.parts c (before + 1) ++ Chain.spliced c (compileAll (and.getD []) .and (before + 1))
    ++ Chain.negated c (compileAll not.toList .and (beforeNot and before))

/-- **The fragment of a node**, with its children as lists.

**Proof sketch.** Each combinator is absent or present. An absent list and an empty one compile to
the same chain, and so do a child and the list of that child alone. -/
theorem compile_node (c : Conjunction) (before : Nat) :
    (Expr.node maps not nor and or).compile c before =
      { parts := strictParts maps not and c before
          ++ Chain.negated c (compileAll nor.toList .or (beforeNor not and before))
          ++ Chain.grouped c (compileAll (or.getD []) .or (beforeOr not nor and before))
        isAlternative := (strictParts maps not and c before).isEmpty &&
          (!(compileAll nor.toList .or (beforeNor not and before)).isEmpty && or.isNone ||
            !(compileAll (or.getD []) .or (beforeOr not nor and before)).isEmpty &&
              nor.isNone) } := by
  cases not <;> cases nor <;> cases and <;> cases or <;>
    simp only [compile, strictParts, beforeNot, beforeNor, beforeOr, compileAll, nodesAll,
      Option.toList_none, Option.toList_some, Option.getD_none, Option.getD_some, List.append_nil,
      Nat.add_zero]

/-- The nodes of a tree are its root and those of its children. -/
theorem nodes_node : (Expr.node maps not nor and or).nodes =
    1 + nodesAll (and.getD []) + nodesAll not.toList + nodesAll nor.toList
      + nodesAll (or.getD []) := by
  cases not <;> cases nor <;> cases and <;> cases or <;>
    simp only [nodes, nodesAll, Option.toList_none, Option.toList_some, Option.getD_none,
      Option.getD_some, Nat.add_zero]

/-- The fields of a tree are those of its root and then those of its children. -/
theorem fields_node : (Expr.node maps not nor and or).fields =
    maps.fields ++ fieldsAll not.toList ++ fieldsAll nor.toList ++ fieldsAll (and.getD [])
      ++ fieldsAll (or.getD []) := by
  cases not <;> cases nor <;> cases and <;> cases or <;>
    simp only [fields, fieldsAll, Option.toList_none, Option.toList_some, Option.getD_none,
      Option.getD_some, List.append_nil]

/-- The chain of a list of filters is that of the first and then that of the others. -/
theorem compileAll_cons (e : Expr) (es : List Expr) (c : Conjunction) (before : Nat) :
    compileAll (e :: es) c before =
      (e.compile c before).chain ++ compileAll es c (before + e.nodes) := by
  rw [compileAll]

end Expr

end SqlFilter
