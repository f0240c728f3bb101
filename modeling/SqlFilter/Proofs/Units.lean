import SqlFilter.Proofs.Emptiness
import SqlFilter.Proofs.Text

set_option relaxedAutoImplicit false
set_option autoImplicit false

/-!
# Units of a predicate

A unit is a piece of a condition that can be negated and joined to others without more parentheses: a
group in parentheses, behind any number of negations. Every term of a compiled filter is one, so a chain
of a single term is as good as a chain in parentheses.

## Design

Parentheses are counted in templates and not in texts, where the columns are segments of their own. So
a parenthesis that belongs to the name of a field counts for nothing.

## Main definitions

* `Template.Balanced` — every parenthesis that is opened is closed.
* `Template.IsUnit` — a group in parentheses, behind any number of negations.

## Main results

* `Chain.balanced_template` — chains of units are balanced.
* `Expr.isUnit_of_mem_compile` — the terms of a compiled filter are units.
-/

namespace SqlFilter

namespace Template

/-- Every parenthesis that is opened is closed. -/
inductive Balanced : Template → Prop
  | nil : Balanced []
  | segment {s : Segment} (hopening : s ≠ .opening) (hclosing : s ≠ .closing) : Balanced [s]
  | parenthesized {t : Template} (h : Balanced t) : Balanced (.opening :: (t ++ [.closing]))
  | append {a b : Template} (ha : Balanced a) (hb : Balanced b) : Balanced (a ++ b)

/-- A balanced template in parentheses, behind any number of negations. -/
inductive IsUnit : Template → Prop
  | parenthesized {t : Template} (h : Balanced t) : IsUnit (.opening :: (t ++ [.closing]))
  | not {t : Template} (h : IsUnit t) : IsUnit (.not :: t)

/-- A balanced template stays balanced behind a segment that is no parenthesis. -/
theorem Balanced.cons {s : Segment} {t : Template} (hopening : s ≠ .opening)
    (hclosing : s ≠ .closing) (h : Balanced t) : Balanced (s :: t) :=
  .append (.segment hopening hclosing) h

/-- A balanced template stays balanced behind a link. -/
theorem Balanced.link (c : Conjunction) {t : Template} (h : Balanced t) : Balanced (.link c :: t) :=
  .cons nofun nofun h

/-- Units are balanced. -/
theorem IsUnit.balanced {t : Template} (h : IsUnit t) : Balanced t := by
  induction h with
  | parenthesized h => exact h.parenthesized
  | not h ih => exact ih.cons nofun nofun

/-- Balanced templates with a link between any two of them are balanced. -/
theorem Balanced.joined_link (c : Conjunction) {ts : List Template} (h : ∀ t ∈ ts, Balanced t) :
    Balanced (Template.joined (.link c) ts) := by
  induction ts with
  | nil => exact .nil
  | cons t ts ih =>
    cases ts with
    | nil => simpa using h t (by simp)
    | cons u ts =>
      rw [Template.joined_cons_cons]
      have hrest := ih fun v hv => h v (List.mem_cons_of_mem _ hv)
      exact (h t (by simp)).append (hrest.link c)

end Template

open Template

/-! ## Terms -/

/-- The template of a condition is balanced. -/
theorem Condition.balanced_template (c : Condition) : Balanced c.template := by
  unfold Condition.template
  refine .cons nofun nofun ?_
  split
  · refine .cons nofun nofun ?_
    split
    · exact .parenthesized (t := [.placeholder c.parameter]) (.segment nofun nofun)
    · exact .segment nofun nofun
  · exact .segment nofun nofun

namespace Term

/-- Joined conditions are a unit. -/
theorem isUnit_conditions (joined : Conjunction) (list : List Condition) :
    IsUnit (Term.conditions joined list).template := by
  rw [Term.template]
  refine .parenthesized (Balanced.joined_link joined fun t ht => ?_)
  obtain ⟨c, -, rfl⟩ := List.mem_map.mp ht
  exact c.balanced_template

end Term

/-- **Chains of units are balanced**, whether they stand first or follow others. -/
theorem Chain.balanced_template (chain : Chain) (h : ∀ link ∈ chain, IsUnit link.2.template) :
    Balanced chain.template ∧ Balanced (linkedTemplate chain) := by
  induction chain with
  | nil =>
    rw [linkedTemplate]
    exact ⟨.nil, .nil⟩
  | cons link chain ih =>
    have hfirst := (h link List.mem_cons_self).balanced
    have hrest := (ih fun link hlink => h link (List.mem_cons_of_mem _ hlink)).2
    rw [Chain.linkedTemplate_cons, Chain.template_cons]
    exact ⟨hfirst.append hrest, (hfirst.append hrest).link link.1⟩

namespace Term

variable {chain : Chain} (h : ∀ link ∈ chain, IsUnit link.2.template)

include h

/-- A chain of units in parentheses is a unit. -/
theorem isUnit_group : IsUnit (Term.group chain).template := by
  rw [template_group]
  exact .parenthesized (chain.balanced_template h).1

/-- The negation of a chain of units is a unit: a single one needs no parentheses. -/
theorem isUnit_not (hne : chain ≠ []) : IsUnit (Term.not chain).template := by
  by_cases hlength : 1 < chain.length
  · rw [template_not_of_lt hlength]
    exact .not (.parenthesized (chain.balanced_template h).1)
  · obtain ⟨link, rest, rfl⟩ := List.exists_cons_of_ne_nil hne
    obtain rfl : rest = [] := by simpa using hlength
    rw [template_not_of_le (Nat.not_lt.mp hlength), Chain.template_cons, linkedTemplate,
      List.append_nil]
    exact .not (h link List.mem_cons_self)

end Term

/-! ## Compiled filters -/

/-- The terms of operator maps are joined conditions. -/
private theorem OperatorMaps.isUnit_of_mem_partsFrom (c : Conjunction) (node : Nat)
    (maps : List ((o : Operator) × FieldMap o.Operand)) (position : Nat) :
    ∀ link ∈ (partsFrom c node position maps).flatten, IsUnit link.2.template := by
  induction maps generalizing position with
  | nil => simp [partsFrom]
  | cons m rest ih =>
    obtain ⟨o, m⟩ := m
    rw [partsFrom]
    split
    · exact ih position
    · simp only [List.flatten_cons, List.cons_append, List.nil_append, List.mem_cons,
        forall_eq_or_imp]
      exact ⟨Term.isUnit_conditions c _, ih _⟩

namespace Chain

variable (c : Conjunction) {chain : Chain} (h : ∀ link ∈ chain, IsUnit link.2.template)

include h

/-- Splicing keeps units. -/
theorem isUnit_of_mem_spliced : ∀ link ∈ (chain.spliced c).flatten, IsUnit link.2.template := by
  rw [flatten_spliced]
  cases chain with
  | nil => simp [linkedBy]
  | cons link rest =>
    simp only [linkedBy, List.mem_cons, forall_eq_or_imp] at h ⊢
    exact h

/-- Units in parentheses are a unit. -/
theorem isUnit_of_mem_grouped : ∀ link ∈ (chain.grouped c).flatten, IsUnit link.2.template := by
  rw [grouped]
  split
  · simp
  · simpa using Term.isUnit_group h

/-- Negated units are a unit. -/
theorem isUnit_of_mem_negated : ∀ link ∈ (chain.negated c).flatten, IsUnit link.2.template := by
  rw [negated]
  split
  · simp
  · rename_i hempty
    simpa using Term.isUnit_not h (by simpa using hempty)

end Chain

namespace Expr

/-- The terms of a list of filters are units, if those of each filter are. -/
private theorem isUnit_of_mem_compileAll (es : List Expr) (c : Conjunction)
    (h : ∀ e ∈ es, ∀ c before, ∀ link ∈ (e.compile c before).chain, IsUnit link.2.template)
    (before : Nat) : ∀ link ∈ compileAll es c before, IsUnit link.2.template := by
  induction es generalizing before with
  | nil => simp [compileAll]
  | cons e es ih =>
    intro link hlink
    rw [compileAll_cons, List.mem_append] at hlink
    rcases hlink with hlink | hlink
    · exact h e List.mem_cons_self c before link hlink
    · exact ih (fun e' he' => h e' (List.mem_cons_of_mem _ he')) _ link hlink

/-- **The terms of a compiled filter are units.**

**Proof sketch.** Induction on the tree. Operator maps give joined conditions, and each combinator makes
units of units; no empty chain is negated. -/
theorem isUnit_of_mem_compile (e : Expr) : ∀ (c : Conjunction) (before : Nat),
    ∀ link ∈ (e.compile c before).chain, IsUnit link.2.template := by
  induction e using inductionOn with
  | node maps not nor and or hand hnot hnor hor =>
    intro c before link hlink
    rw [compile_node, Fragment.chain, strictParts] at hlink
    simp only [List.flatten_append, List.mem_append] at hlink
    rcases hlink with (((hlink | hlink) | hlink) | hlink) | hlink
    · exact OperatorMaps.isUnit_of_mem_partsFrom c _ _ 0 link hlink
    · exact Chain.isUnit_of_mem_spliced c (isUnit_of_mem_compileAll _ .and hand _) link hlink
    · exact Chain.isUnit_of_mem_negated c (isUnit_of_mem_compileAll _ .and hnot _) link hlink
    · exact Chain.isUnit_of_mem_negated c (isUnit_of_mem_compileAll _ .or hnor _) link hlink
    · exact Chain.isUnit_of_mem_grouped c (isUnit_of_mem_compileAll _ .or hor _) link hlink

end Expr

end SqlFilter
