import Mathlib.Data.List.Basic
import SqlFilter.Proofs.Tree

set_option relaxedAutoImplicit false
set_option autoImplicit false

/-!
# Renumbered predicates

The conditions of a predicate carry the numbers of their nodes, and these show in the names of the
parameters and nowhere else. A renumbering replaces them and keeps everything else: links, parentheses,
fields, positions and tests. So two filters that compile to the same predicate up to a renumbering have
the same text up to the numbers in the names of the parameters, and bind the same operands.

## Main definitions

* `Condition.renumber`, `Term.renumber`, `Chain.renumber`, `Fragment.renumber` — predicates with
  other node numbers.

## Main results

* `Chain.renumber_linkedBy`, `Chain.renumber_spliced`, `Chain.renumber_grouped`,
  `Chain.renumber_negated` — what combinators make of a renumbered chain.
* `OperatorMaps.renumber_parts` — the parts of a node that gets another number.
* `Chain.conditions_renumber`, `Chain.map_snd_bindings_renumber` — conditions and bound values.
-/

namespace SqlFilter

/-! ## Renumbering -/

/-- A condition of a node that gets another number. -/
def Condition.renumber (ρ : Nat → Nat) (d : Condition) : Condition := { d with node := ρ d.node }

mutual

/-- A term with other node numbers. -/
def Term.renumber (ρ : Nat → Nat) : Term → Term
  | .conditions joined list => .conditions joined (list.map (Condition.renumber ρ))
  | .group chain => .group (renumberLinks ρ chain)
  | .not chain => .not (renumberLinks ρ chain)

/-- Linked terms with other node numbers. -/
def renumberLinks (ρ : Nat → Nat) : List (Conjunction × Term) → List (Conjunction × Term)
  | [] => []
  | (c, t) :: rest => (c, t.renumber ρ) :: renumberLinks ρ rest

end

/-- A chain with other node numbers. -/
def Chain.renumber (ρ : Nat → Nat) (chain : Chain) : Chain := renumberLinks ρ chain

/-- A fragment with other node numbers. -/
def Fragment.renumber (ρ : Nat → Nat) (f : Fragment) : Fragment :=
  ⟨f.parts.map (Chain.renumber ρ), f.isAlternative⟩

variable (ρ : Nat → Nat)

/-- Joined conditions are renumbered condition by condition. -/
@[simp] theorem Term.renumber_conditions (joined : Conjunction) (list : List Condition) :
    (Term.conditions joined list).renumber ρ =
      .conditions joined (list.map (Condition.renumber ρ)) := by
  rw [renumber]

/-- A group is renumbered with its chain. -/
@[simp] theorem Term.renumber_group (chain : Chain) :
    (Term.group chain).renumber ρ = .group (chain.renumber ρ) := by
  rw [renumber]
  rfl

/-- A negation is renumbered with its chain. -/
@[simp] theorem Term.renumber_not (chain : Chain) :
    (Term.not chain).renumber ρ = .not (chain.renumber ρ) := by
  rw [renumber]
  rfl

/-! ## Chains -/

namespace Chain

/-- Nothing is renumbered in the empty chain. -/
@[simp] theorem renumber_nil : Chain.renumber ρ [] = [] := by rw [renumber, renumberLinks]

/-- A chain is renumbered term by term. -/
@[simp] theorem renumber_cons (link : Conjunction × Term) (chain : Chain) :
    Chain.renumber ρ (link :: chain) = (link.1, link.2.renumber ρ) :: chain.renumber ρ := by
  rw [renumber, renumberLinks]
  rfl

/-- Two chains in a row are renumbered one after the other. -/
@[simp] theorem renumber_append (a b : Chain) :
    Chain.renumber ρ (a ++ b) = Chain.renumber ρ a ++ Chain.renumber ρ b := by
  induction a with
  | nil => simp
  | cons link a ih => rw [List.cons_append, renumber_cons, renumber_cons, ih, List.cons_append]

/-- The chain of renumbered parts is the renumbered chain of the parts. -/
theorem renumber_flatten (parts : List Chain) :
    Chain.renumber ρ parts.flatten = (parts.map (Chain.renumber ρ)).flatten := by
  induction parts with
  | nil => simp
  | cons part parts ih =>
    rw [List.flatten_cons, renumber_append, ih, List.map_cons, List.flatten_cons]

variable (c : Conjunction) (chain : Chain)

/-- A chain is linked before or after it is renumbered. -/
theorem renumber_linkedBy : (chain.linkedBy c).renumber ρ = (chain.renumber ρ).linkedBy c := by
  cases chain <;> simp [linkedBy]

/-- A chain is spliced before or after it is renumbered. -/
theorem renumber_spliced :
    (chain.spliced c).map (Chain.renumber ρ) = (chain.renumber ρ).spliced c := by
  cases chain <;> simp [spliced, renumber_linkedBy]

/-- A chain is grouped before or after it is renumbered. -/
theorem renumber_grouped :
    (chain.grouped c).map (Chain.renumber ρ) = (chain.renumber ρ).grouped c := by
  cases chain <;> simp [grouped]

/-- A chain is negated before or after it is renumbered. -/
theorem renumber_negated :
    (chain.negated c).map (Chain.renumber ρ) = (chain.renumber ρ).negated c := by
  cases chain <;> simp [negated]

end Chain

/-- The parts of a fragment that is renumbered are renumbered together. -/
@[simp] theorem Fragment.chain_renumber (f : Fragment) :
    (f.renumber ρ).chain = f.chain.renumber ρ := by
  rw [chain, chain, Chain.renumber_flatten]
  rfl

variable {ρ} in
/-- A fragment with the parts of a renumbered one has its chain. -/
theorem Fragment.chain_eq_renumber {f g : Fragment} (h : f.parts = (g.renumber ρ).parts) :
    f.chain = g.chain.renumber ρ := by
  rw [← chain_renumber, chain, h, chain]

/-! ## Nodes -/

/-- The conditions of a map, in a node that gets another number. -/
theorem FieldMap.renumber_conditions (operator : Operator) {k : Kind} (m : FieldMap k.Operand)
    (node position : Nat) : (m.conditions operator node position).map (Condition.renumber ρ) =
      m.conditions operator (ρ node) position := by
  simp [FieldMap.conditions, Condition.renumber, Function.comp_def]

/-- The parts of maps, in a node that gets another number. -/
private theorem OperatorMaps.renumber_partsFrom (c : Conjunction) (node : Nat)
    (maps : List ((o : Operator) × FieldMap o.Operand)) (position : Nat) :
    (partsFrom c node position maps).map (Chain.renumber ρ) =
      partsFrom c (ρ node) position maps := by
  induction maps generalizing position with
  | nil => rfl
  | cons m rest ih =>
    obtain ⟨o, m⟩ := m
    rw [partsFrom, partsFrom]
    split
    · exact ih position
    · rw [List.map_cons, ih, Chain.renumber_cons, Chain.renumber_nil, Term.renumber_conditions,
        FieldMap.renumber_conditions]

/-- **The parts of a node that gets another number** are the same but for this number. -/
theorem OperatorMaps.renumber_parts (maps : OperatorMaps) (c : Conjunction) (node : Nat) :
    (maps.parts c node).map (Chain.renumber ρ) = maps.parts c (ρ node) :=
  renumber_partsFrom ρ c node _ 0

/-! ## Conditions and bound values -/

/-- The conditions of a renumbered chain are those of the chain, renumbered, if this holds of each of
its terms. -/
private theorem Chain.conditions_renumber_of_forall (chain : Chain)
    (h : ∀ link ∈ chain,
      (link.2.renumber ρ).allConditions = link.2.allConditions.map (Condition.renumber ρ)) :
    (chain.renumber ρ).conditions = chain.conditions.map (Condition.renumber ρ) := by
  induction chain with
  | nil => simp
  | cons link chain ih =>
    rw [renumber_cons, conditions_cons, conditions_cons, List.map_append, h link (by simp),
      ih fun l hl => h l (by simp [hl])]

/-- The conditions of a renumbered term are those of the term, renumbered. -/
theorem Term.allConditions_renumber (t : Term) :
    (t.renumber ρ).allConditions = t.allConditions.map (Condition.renumber ρ) := by
  induction t using Term.inductionOn with
  | conditions joined list => simp
  | group chain h | not chain h => simpa using Chain.conditions_renumber_of_forall ρ chain h

/-- **The conditions of a renumbered chain** are those of the chain, renumbered. -/
theorem Chain.conditions_renumber (chain : Chain) :
    (chain.renumber ρ).conditions = chain.conditions.map (Condition.renumber ρ) :=
  conditions_renumber_of_forall ρ chain fun link _ => link.2.allConditions_renumber ρ

/-- A condition binds the same operand under every number. -/
theorem Condition.map_snd_binding?_renumber (d : Condition) :
    (d.renumber ρ).binding?.map Prod.snd = d.binding?.map Prod.snd := by
  rw [binding?, binding?, renumber]
  cases d.test <;> rfl

/-- **Renumbering keeps the bound values.** -/
theorem Chain.map_snd_bindings_renumber (chain : Chain) :
    (chain.renumber ρ).bindings.map Prod.snd = chain.bindings.map Prod.snd := by
  rw [bindings, bindings, conditions_renumber, List.filterMap_map, List.map_filterMap,
    List.map_filterMap]
  exact List.filterMap_congr fun d _ => d.map_snd_binding?_renumber ρ

end SqlFilter
