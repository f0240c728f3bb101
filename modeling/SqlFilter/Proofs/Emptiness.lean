import Mathlib.Data.List.Perm.Basic
import SqlFilter.Proofs.Tree

set_option relaxedAutoImplicit false
set_option autoImplicit false

/-!
# Filters that say nothing

A filter compiles to the empty fragment exactly if no field is tested in it. So whatever depends on
which fragments are empty, such as whether a filter stands as an alternative to the keys, can be told
from the tree.

## Main definitions

* `Expr.standsAsAlternative` — a tree that consists of a lone `nor` or a lone `or`.

## Main results

* `Expr.chain_eq_nil_iff`, `Expr.parts_eq_nil_iff` — the fragments of trees without fields.
* `Expr.isAlternative_compile` — fragments are marked as alternatives by the shape of their trees.
-/

namespace SqlFilter

/-! ## Parts that are left out -/

namespace Chain

variable (c : Conjunction) (chain : Chain)

/-- An empty chain is not spliced. -/
@[simp] theorem spliced_eq_nil_iff : chain.spliced c = [] ↔ chain = [] := by
  cases chain <;> simp [spliced]

/-- An empty chain is not negated. -/
@[simp] theorem negated_eq_nil_iff : chain.negated c = [] ↔ chain = [] := by
  cases chain <;> simp [negated]

/-- An empty chain is not grouped. -/
@[simp] theorem grouped_eq_nil_iff : chain.grouped c = [] ↔ chain = [] := by
  cases chain <;> simp [grouped]

/-- What is spliced is the chain. -/
@[simp] theorem flatten_spliced : (chain.spliced c).flatten = chain.linkedBy c := by
  cases chain <;> simp [spliced, linkedBy]

/-- What is negated is not empty, unless the chain is. -/
@[simp] theorem flatten_negated_eq_nil_iff : (chain.negated c).flatten = [] ↔ chain = [] := by
  cases chain <;> simp [negated]

/-- What is grouped is not empty, unless the chain is. -/
@[simp] theorem flatten_grouped_eq_nil_iff : (chain.grouped c).flatten = [] ↔ chain = [] := by
  cases chain <;> simp [grouped]

/-- Relinking keeps a chain from being empty. -/
@[simp] theorem linkedBy_eq_nil_iff : chain.linkedBy c = [] ↔ chain = [] := by
  cases chain <;> simp [linkedBy]

end Chain

/-- A map is empty exactly if it has no fields. -/
theorem FieldMap.isEmpty_iff {α : Type} (m : FieldMap α) : m.isEmpty = true ↔ m.fields = [] := by
  simp [FieldMap.isEmpty, FieldMap.fields]

namespace OperatorMaps

/-- Maps without fields have no parts, and no others. -/
private theorem partsFrom_eq_nil_iff (c : Conjunction) (node : Nat)
    (maps : List ((o : Operator) × FieldMap o.Operand)) (position : Nat) :
    (partsFrom c node position maps = [] ↔ maps.flatMap (fun m => m.2.fields) = []) ∧
      ((partsFrom c node position maps).flatten = [] ↔
        maps.flatMap (fun m => m.2.fields) = []) := by
  induction maps generalizing position with
  | nil => simp [partsFrom]
  | cons m rest ih =>
    obtain ⟨o, m⟩ := m
    rw [partsFrom, List.flatMap_cons, List.append_eq_nil_iff, ← m.isEmpty_iff]
    by_cases h : m.isEmpty = true
    · simpa [h] using ih position
    · simp [h]

/-- The fields of maps are those of the maps in the order of the parts. -/
theorem fields_eq_nil_iff (maps : OperatorMaps) : maps.fields = [] ↔
    (maps.present Operator.compiled).flatMap (fun m => m.2.fields) = [] := by
  have hperm : (maps.present Operator.declared).Perm (maps.present Operator.compiled) :=
    List.Perm.filterMap _ (by decide)
  simp only [fields, List.flatMap_eq_nil_iff, hperm.mem_iff]

/-- Maps have no fields exactly if each of them is empty. -/
theorem fields_eq_nil_iff_isEmpty (maps : OperatorMaps) :
    maps.fields = [] ↔ ∀ o, ∀ m ∈ maps o, m.isEmpty = true := by
  simp only [fields, present, List.flatMap_eq_nil_iff, List.mem_filterMap, Option.map_eq_some_iff,
    FieldMap.isEmpty_iff]
  constructor
  · intro h o m hm
    exact h ⟨o, m⟩ ⟨o, o.mem_declared, m, hm, rfl⟩
  · rintro h _ ⟨o, -, m, hm, rfl⟩
    exact h o m hm

/-- Maps without fields have no parts. -/
theorem parts_eq_nil_iff (maps : OperatorMaps) (c : Conjunction) (node : Nat) :
    maps.parts c node = [] ↔ maps.fields = [] :=
  (partsFrom_eq_nil_iff c node _ 0).1.trans maps.fields_eq_nil_iff.symm

/-- The parts of maps are empty together only if there are none. -/
theorem flatten_parts_eq_nil_iff (maps : OperatorMaps) (c : Conjunction) (node : Nat) :
    (maps.parts c node).flatten = [] ↔ maps.fields = [] :=
  (partsFrom_eq_nil_iff c node _ 0).2.trans maps.fields_eq_nil_iff.symm

end OperatorMaps

/-! ## Trees without fields -/

namespace Expr

/-- A list of filters compiles to the empty chain if no field is tested in it, if this holds of each
of them. -/
private theorem compileAll_eq_nil_iff_of_forall (es : List Expr) (c : Conjunction)
    (h : ∀ e ∈ es, ∀ c before, (e.compile c before).chain = [] ↔ e.fields = []) (before : Nat) :
    compileAll es c before = [] ↔ fieldsAll es = [] := by
  induction es generalizing before with
  | nil => simp [compileAll, fieldsAll]
  | cons e es ih =>
    rw [compileAll_cons, fieldsAll, List.append_eq_nil_iff, List.append_eq_nil_iff, h e (by simp),
      ih fun e' he' => h e' (by simp [he'])]

/-- **A filter says nothing exactly if it tests no field.**

**Proof sketch.** Induction on the tree. A combinator is left out exactly if the chain below it is
empty. -/
theorem chain_eq_nil_iff (e : Expr) : ∀ (c : Conjunction) (before : Nat),
    (e.compile c before).chain = [] ↔ e.fields = [] := by
  induction e using inductionOn with
  | node maps not nor and or hand hnot hnor hor =>
    intro c before
    rw [compile_node, Fragment.chain, strictParts, fields_node]
    simp only [List.flatten_append, List.append_eq_nil_iff, OperatorMaps.flatten_parts_eq_nil_iff,
      Chain.flatten_spliced, Chain.linkedBy_eq_nil_iff, Chain.flatten_negated_eq_nil_iff,
      Chain.flatten_grouped_eq_nil_iff, compileAll_eq_nil_iff_of_forall _ _ hand,
      compileAll_eq_nil_iff_of_forall _ _ hnot, compileAll_eq_nil_iff_of_forall _ _ hnor,
      compileAll_eq_nil_iff_of_forall _ _ hor]
    constructor
    · rintro ⟨⟨⟨⟨hmaps, hand⟩, hnot⟩, hnor⟩, hor⟩
      exact ⟨⟨⟨⟨hmaps, hnot⟩, hnor⟩, hand⟩, hor⟩
    · rintro ⟨⟨⟨⟨hmaps, hnot⟩, hnor⟩, hand⟩, hor⟩
      exact ⟨⟨⟨⟨hmaps, hand⟩, hnot⟩, hnor⟩, hor⟩

/-- A list of filters says nothing exactly if no field is tested in it. -/
theorem compileAll_eq_nil_iff (es : List Expr) (c : Conjunction) (before : Nat) :
    compileAll es c before = [] ↔ fieldsAll es = [] :=
  compileAll_eq_nil_iff_of_forall es c (fun e _ => e.chain_eq_nil_iff) before

/-- What a node says apart from alternatives is nothing exactly if its own maps, its `and` items and
its `not` child test no field. -/
theorem strictParts_eq_nil_iff (maps : OperatorMaps) (not : Option Expr)
    (and : Option (List Expr)) (c : Conjunction) (before : Nat) :
    strictParts maps not and c before = [] ↔
      maps.fields = [] ∧ fieldsAll (and.getD []) = [] ∧ fieldsAll not.toList = [] := by
  rw [strictParts, List.append_eq_nil_iff, List.append_eq_nil_iff, OperatorMaps.parts_eq_nil_iff,
    Chain.spliced_eq_nil_iff, Chain.negated_eq_nil_iff, compileAll_eq_nil_iff,
    compileAll_eq_nil_iff, and_assoc]

/-- A filter has no parts exactly if it tests no field: none of its parts is empty. -/
theorem parts_eq_nil_iff (e : Expr) (c : Conjunction) (before : Nat) :
    (e.compile c before).parts = [] ↔ e.fields = [] := by
  rw [← e.chain_eq_nil_iff c before]
  obtain ⟨maps, not, nor, and, or⟩ := e
  rw [compile_node, Fragment.chain, strictParts]
  simp only [List.flatten_append, List.append_eq_nil_iff, OperatorMaps.flatten_parts_eq_nil_iff,
    OperatorMaps.parts_eq_nil_iff, Chain.flatten_spliced, Chain.linkedBy_eq_nil_iff,
    Chain.flatten_negated_eq_nil_iff, Chain.flatten_grouped_eq_nil_iff, Chain.spliced_eq_nil_iff,
    Chain.negated_eq_nil_iff, Chain.grouped_eq_nil_iff]

/-! ## Alternatives -/

/-- A tree tests fields only below `nor`, and has no `or`, or only below `or`, and has no `nor`. -/
def standsAsAlternative : Expr → Bool
  | .node maps not nor and or =>
    maps.fields.isEmpty && (fieldsAll (and.getD [])).isEmpty && (fieldsAll not.toList).isEmpty &&
      (!(fieldsAll nor.toList).isEmpty && or.isNone ||
        !(fieldsAll (or.getD [])).isEmpty && nor.isNone)

/-- **Which fragments are alternatives** is told by the shape of their trees, whatever conjunction
these stand under. -/
theorem isAlternative_compile (e : Expr) (c : Conjunction) (before : Nat) :
    (e.compile c before).isAlternative = e.standsAsAlternative := by
  obtain ⟨maps, not, nor, and, or⟩ := e
  have hchains (es : List Expr) (c : Conjunction) (before : Nat) :
      (compileAll es c before).isEmpty = (fieldsAll es).isEmpty := by
    rw [Bool.eq_iff_iff, List.isEmpty_iff, List.isEmpty_iff, compileAll_eq_nil_iff]
  have hstrict : (strictParts maps not and c before).isEmpty =
      (maps.fields.isEmpty && (fieldsAll (and.getD [])).isEmpty &&
        (fieldsAll not.toList).isEmpty) := by
    rw [Bool.eq_iff_iff]
    simp only [Bool.and_eq_true, List.isEmpty_iff, strictParts_eq_nil_iff, and_assoc]
  rw [compile_node, standsAsAlternative, hstrict, hchains, hchains]

end Expr

end SqlFilter
