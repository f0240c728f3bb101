import Mathlib.Data.List.Chain
import Mathlib.Order.Bounds.Basic
import SqlFilter.Proofs.Tree

set_option relaxedAutoImplicit false
set_option autoImplicit false

/-!
# The depth of a filter

The depth of a filter is the number of nodes on its longest path. It is also the number of calls that are
open at once while the filter is walked: a function that goes through a filter calls itself on every child
of a node, so it needs as many levels as the filter is deep, and no more.

## Design

A recursion within a number of levels is given by its step: what the function is at a node, with calls in
place of itself. A call that would open one level too many has no value. So a function that has its value
within some levels never needs more of them.

## Main definitions

* `Expr.children` — the filters below the combinators of a node.
* `Expr.IsPath` — a node followed by a child, a child of that and so on.
* `Expr.run` — a recursive function whose calls may be open only so many levels deep.
* `Expr.depthStep`, `Expr.fieldsStep`, `Expr.compileStep` — what depth, fields and fragment are at a node,
  with calls for the children.

## Main results

* `Expr.isGreatest_depth` — the depth is the length of the longest path.
* `Expr.CallsChildren.run_eq` — a function that calls itself on children needs as many levels as the filter
  is deep.
* `Expr.depthStep_callsChildren`, `Expr.fieldsStep_callsChildren`, `Expr.compileStep_callsChildren` — depth,
  fields and fragments are such functions.
-/

namespace SqlFilter.Expr

/-! ## Children -/

/-- The children of a node: those of `not` and `nor` and the items of `and` and `or`. -/
def children : Expr → List Expr
  | .node _ not nor and or => not.toList ++ nor.toList ++ and.getD [] ++ or.getD []

/-- The operators of a node. -/
def maps : Expr → OperatorMaps
  | .node maps _ _ _ _ => maps

/-- **Induction on a filter** with a hypothesis for its children. -/
@[elab_as_elim]
theorem childInduction {motive : Expr → Prop} (e : Expr)
    (step : ∀ e : Expr, (∀ child ∈ e.children, motive child) → motive e) : motive e := by
  induction e using inductionOn with
  | node maps not nor and or hand hnot hnor hor =>
    refine step _ fun child hchild => ?_
    simp only [children, List.mem_append] at hchild
    rcases hchild with ((h | h) | h) | h
    · exact hnot child h
    · exact hnor child h
    · exact hand child h
    · exact hor child h

/-! ## Depth -/

/-- The depth of two lists of filters is the greater one. -/
theorem depthAll_append (a b : List Expr) : depthAll (a ++ b) = max (depthAll a) (depthAll b) := by
  induction a with
  | nil => simp [depthAll]
  | cons e a ih => rw [List.cons_append, depthAll, ih, depthAll, Nat.max_assoc]

/-- The depth of a filter is one more than that of its children. -/
theorem depth_eq (e : Expr) : e.depth = 1 + depthAll e.children := by
  obtain ⟨maps, not, nor, and, or⟩ := e
  rw [children, depthAll_append, depthAll_append, depthAll_append]
  cases not <;> cases nor <;> cases and <;> cases or <;>
    simp only [depth, depthAll, Option.toList_none, Option.toList_some, Option.getD_none,
      Option.getD_some, Nat.max_zero, Nat.zero_max, Nat.max_assoc]

/-- A list of filters is within a depth if each of them is. -/
theorem depthAll_le_iff {es : List Expr} {n : Nat} : depthAll es ≤ n ↔ ∀ e ∈ es, e.depth ≤ n := by
  induction es with
  | nil => simp [depthAll]
  | cons e es ih => rw [depthAll, Nat.max_le, ih, List.forall_mem_cons]

/-- The depth of a list is that of one of its filters, unless it is empty. -/
theorem exists_depth_eq_depthAll {es : List Expr} (h : es ≠ []) : ∃ e ∈ es, e.depth = depthAll es := by
  induction es with
  | nil => exact absurd rfl h
  | cons e es ih =>
    rw [depthAll]
    by_cases hle : depthAll es ≤ e.depth
    · exact ⟨e, List.mem_cons_self, (Nat.max_eq_left hle).symm⟩
    · have hne : es ≠ [] := by
        rintro rfl
        exact hle (Nat.zero_le _)
      obtain ⟨d, hd, hdepth⟩ := ih hne
      exact ⟨d, List.mem_cons_of_mem _ hd, by omega⟩

/-- A filter is deeper than its children. -/
theorem depth_lt_of_mem_children {e child : Expr} (h : child ∈ e.children) : child.depth < e.depth := by
  have hle := depthAll_le_iff.mp (Nat.le_refl (depthAll e.children)) child h
  rw [e.depth_eq]
  omega

/-- A path down a filter: each node is a child of the one before. -/
def IsPath (path : List Expr) : Prop := path.IsChain fun parent child => child ∈ parent.children

/-- A path is no longer than its first node is deep. -/
theorem length_le_depth {e : Expr} {below : List Expr} (h : IsPath (e :: below)) :
    (e :: below).length ≤ e.depth := by
  induction below generalizing e with
  | nil =>
    rw [e.depth_eq, List.length_singleton]
    omega
  | cons child below ih =>
    obtain ⟨hchild, hbelow⟩ := List.isChain_cons_cons.mp h
    have hlt := depth_lt_of_mem_children hchild
    have hle := ih hbelow
    rw [List.length_cons]
    omega

/-- Some path is as long as its first node is deep. -/
theorem exists_isPath_length_eq (e : Expr) :
    ∃ below, IsPath (e :: below) ∧ (e :: below).length = e.depth := by
  induction e using childInduction with
  | step e ih =>
    by_cases hnone : e.children = []
    · refine ⟨[], List.isChain_singleton e, ?_⟩
      rw [e.depth_eq, hnone, depthAll]
      rfl
    · obtain ⟨child, hchild, hdepth⟩ := exists_depth_eq_depthAll hnone
      obtain ⟨below, hpath, hlength⟩ := ih child hchild
      refine ⟨child :: below, List.isChain_cons_cons.mpr ⟨hchild, hpath⟩, ?_⟩
      rw [List.length_cons, hlength, e.depth_eq, hdepth, Nat.add_comm]

/-- **The depth of a filter is the length of its longest path.** -/
theorem isGreatest_depth (e : Expr) :
    IsGreatest {n | ∃ below, IsPath (e :: below) ∧ (e :: below).length = n} e.depth :=
  ⟨e.exists_isPath_length_eq, fun _ ⟨_, hpath, hlength⟩ => hlength ▸ length_le_depth hpath⟩

/-! ## Recursion within a number of levels -/

section

variable {ι α : Type}

/-- A recursive function on filters, given by what it does at a node with calls to itself, where no more
than so many calls may be open at once. One that would open more has no value. -/
def run (step : (Expr → ι → Option α) → Expr → ι → Option α) : Nat → Expr → ι → Option α
  | 0, _, _ => none
  | levels + 1, e, i => step (run step levels) e i

/-- A function calls itself on every child of a node, and on nothing else: it has a value where all calls on
children have theirs, and none where the calls on some child have none. -/
structure CallsChildren (step : (Expr → ι → Option α) → Expr → ι → Option α) (f : Expr → ι → α) :
    Prop where
  eq_some : ∀ call e i, (∀ child ∈ e.children, ∀ j, call child j = some (f child j)) →
    step call e i = some (f e i)
  eq_none : ∀ call e i, (∃ child ∈ e.children, ∀ j, call child j = none) → step call e i = none

/-- **A function that calls itself on children needs as many levels as the filter is deep**: with fewer it
has no value, and with these it has its own.

**Proof sketch.** Induction on the levels. Without a level there is no value, and every filter has a
depth of one at least. With one more level, either every child has its value on the levels that are
left, or a deepest child has none, and then the call on it fails. -/
theorem CallsChildren.run_eq {step : (Expr → ι → Option α) → Expr → ι → Option α} {f : Expr → ι → α}
    (h : CallsChildren step f) (levels : Nat) (e : Expr) (i : ι) :
    run step levels e i = if e.depth ≤ levels then some (f e i) else none := by
  induction levels generalizing e i with
  | zero =>
    have hpos : ¬ e.depth ≤ 0 := by
      rw [e.depth_eq]
      omega
    rw [if_neg hpos, run]
  | succ levels ih =>
    rw [run]
    split
    · rename_i hdepth
      refine h.eq_some _ e i fun child hchild j => ?_
      have hlt := depth_lt_of_mem_children hchild
      rw [ih, if_pos (by omega)]
    · rename_i hdepth
      have hne : e.children ≠ [] := by
        intro hnil
        rw [e.depth_eq, hnil, depthAll] at hdepth
        omega
      obtain ⟨child, hchild, hdeepest⟩ := exists_depth_eq_depthAll hne
      refine h.eq_none _ e i ⟨child, hchild, fun j => ?_⟩
      rw [e.depth_eq, ← hdeepest] at hdepth
      rw [ih, if_neg (by omega)]

end

/-! ## Depth, fields and fragments -/

section

variable {β : Type} {call : Expr → Option β} {es : List Expr}

/-- Calls that all have values. -/
private theorem mapM_eq_some {f : Expr → β} (h : ∀ e ∈ es, call e = some (f e)) :
    es.mapM call = some (es.map f) := by
  induction es with
  | nil => rfl
  | cons e es ih =>
    rw [List.mapM_cons, h e List.mem_cons_self, ih fun e he => h e (List.mem_cons_of_mem _ he)]
    rfl

/-- Calls one of which has no value. -/
private theorem mapM_eq_none (h : ∃ e ∈ es, call e = none) : es.mapM call = none := by
  induction es with
  | nil => simp at h
  | cons e es ih =>
    rw [List.mapM_cons]
    cases hcall : call e with
    | none => rfl
    | some b =>
      obtain ⟨e', hmem, hnone⟩ := h
      rcases List.mem_cons.mp hmem with rfl | hmem
      · simp [hcall] at hnone
      · rw [ih ⟨e', hmem, hnone⟩]
        rfl

end

/-- The depth of a node, with calls for that of its children. -/
def depthStep (call : Expr → Unit → Option Nat) (e : Expr) (_ : Unit) : Option Nat :=
  (e.children.mapM (call · ())).map fun depths => 1 + depths.foldr max 0

/-- The fields of a node, with calls for those of its children. -/
def fieldsStep (call : Expr → Unit → Option (List String)) (e : Expr) (_ : Unit) :
    Option (List String) :=
  (e.children.mapM (call · ())).map fun fields => e.maps.fields ++ fields.flatten

/-- The chain of a list of nodes and the count of nodes after it, with a call for each node. -/
def compileItems (call : Expr → Conjunction × Nat → Option (Fragment × Nat)) (c : Conjunction) :
    List Expr → Nat → Option (Chain × Nat)
  | [], before => some ([], before)
  | e :: es, before => do
    let (fragment, after) ← call e (c, before)
    let (chain, after) ← compileItems call c es after
    return (fragment.chain ++ chain, after)

/-- The fragment of a node and the count of nodes after it, with calls for its children. -/
def compileStep (call : Expr → Conjunction × Nat → Option (Fragment × Nat)) :
    Expr → Conjunction × Nat → Option (Fragment × Nat)
  | .node maps not nor and or, (c, before) => do
    let (ands, after) ← compileItems call .and (and.getD []) (before + 1)
    let (nots, after) ← compileItems call .and not.toList after
    let (nors, after) ← compileItems call .or nor.toList after
    let (ors, after) ← compileItems call .or (or.getD []) after
    let strict := maps.parts c (before + 1) ++ ands.spliced c ++ nots.negated c
    return ({ parts := strict ++ nors.negated c ++ ors.grouped c
              isAlternative := strict.isEmpty &&
                (!nors.isEmpty && or.isNone || !ors.isEmpty && nor.isNone) }, after)

/-- The depth of a filter is found by calls on its children. -/
theorem depthStep_callsChildren : CallsChildren depthStep fun e _ => e.depth where
  eq_some call e _ h := by
    have hfoldr (es : List Expr) : (es.map depth).foldr max 0 = depthAll es := by
      induction es with
      | nil => rfl
      | cons e es ih => rw [List.map_cons, List.foldr_cons, ih, depthAll]
    rw [depthStep, mapM_eq_some fun child hchild => h child hchild (), e.depth_eq, ← hfoldr]
    rfl
  eq_none call e _ h := by
    obtain ⟨child, hchild, hnone⟩ := h
    rw [depthStep, mapM_eq_none ⟨child, hchild, hnone ()⟩]
    rfl

/-- The fields of a filter are found by calls on its children. -/
theorem fieldsStep_callsChildren : CallsChildren fieldsStep fun e _ => e.fields where
  eq_some call e _ h := by
    have hflatten (es : List Expr) : (es.map fields).flatten = fieldsAll es := by
      induction es with
      | nil => rfl
      | cons e es ih => rw [List.map_cons, List.flatten_cons, ih, fieldsAll]
    rw [fieldsStep, mapM_eq_some fun child hchild => h child hchild ()]
    obtain ⟨maps, not, nor, and, or⟩ := e
    rw [fields_node, ← hflatten, ← hflatten, ← hflatten, ← hflatten]
    simp [children, Expr.maps]
  eq_none call e _ h := by
    obtain ⟨child, hchild, hnone⟩ := h
    rw [fieldsStep, mapM_eq_none ⟨child, hchild, hnone ()⟩]
    rfl

/-- The chain of a list of filters, if the calls on all of them have values. -/
private theorem compileItems_eq_some {call : Expr → Conjunction × Nat → Option (Fragment × Nat)}
    {es : List Expr}
    (h : ∀ e ∈ es, ∀ i : Conjunction × Nat, call e i = some (e.compile i.1 i.2, i.2 + e.nodes))
    (c : Conjunction) (before : Nat) :
    compileItems call c es before = some (compileAll es c before, before + nodesAll es) := by
  induction es generalizing before with
  | nil => rfl
  | cons e es ih =>
    rw [compileItems, h e List.mem_cons_self, compileAll_cons, nodesAll, ← Nat.add_assoc]
    dsimp only [Option.bind_eq_bind, Option.bind_some]
    rw [ih fun e he => h e (List.mem_cons_of_mem _ he)]
    rfl

/-- There is no chain of a list of filters, if the calls on one of them have no value. -/
private theorem compileItems_eq_none {call : Expr → Conjunction × Nat → Option (Fragment × Nat)}
    {es : List Expr} (h : ∃ e ∈ es, ∀ i, call e i = none) (c : Conjunction) (before : Nat) :
    compileItems call c es before = none := by
  induction es generalizing before with
  | nil => simp at h
  | cons e es ih =>
    obtain ⟨e', hmem, hnone⟩ := h
    rw [compileItems]
    rcases List.mem_cons.mp hmem with rfl | hmem
    · rw [hnone]
      rfl
    · cases call e (c, before) with
      | none => rfl
      | some result =>
        dsimp only [Option.bind_eq_bind, Option.bind_some]
        rw [ih ⟨e', hmem, hnone⟩]
        rfl

/-- The fragment of a filter is compiled by calls on its children.

**Proof sketch.** If the calls on all children have their values, the step builds the fragment from
the same chains as `compile_node`. If the call on one child fails, so does the compiling of the list
it stands in, and with it the step, whatever the lists before it give. -/
theorem compileStep_callsChildren :
    CallsChildren compileStep fun e i => (e.compile i.1 i.2, i.2 + e.nodes) where
  eq_some call e i h := by
    obtain ⟨maps, not, nor, and, or⟩ := e
    obtain ⟨c, before⟩ := i
    simp only [children, List.mem_append, or_imp, forall_and] at h
    obtain ⟨⟨⟨hnot, hnor⟩, hand⟩, hor⟩ := h
    simp only [compileStep, compileItems_eq_some hand, compileItems_eq_some hnot,
      compileItems_eq_some hnor, compileItems_eq_some hor, Option.bind_eq_bind, Option.bind_some]
    refine congrArg some (Prod.ext ?_ ?_)
    · rw [compile_node]
      rfl
    · rw [nodes_node]
      simp only [Nat.add_assoc]
  eq_none call e i h := by
    obtain ⟨maps, not, nor, and, or⟩ := e
    obtain ⟨c, before⟩ := i
    obtain ⟨child, hchild, hnone⟩ := h
    simp only [children, List.mem_append] at hchild
    rw [compileStep]
    -- the lists before the one of the child may have chains, which are of no use then
    rcases hchild with ((hnot | hnor) | hand) | hor
    · refine Option.bind_eq_none_iff.mpr fun ands _ => ?_
      exact Option.bind_eq_none_iff.mpr fun nots hnots => by
        simp [compileItems_eq_none ⟨child, hnot, hnone⟩] at hnots
    · refine Option.bind_eq_none_iff.mpr fun ands _ => Option.bind_eq_none_iff.mpr fun nots _ => ?_
      exact Option.bind_eq_none_iff.mpr fun nors hnors => by
        simp [compileItems_eq_none ⟨child, hnor, hnone⟩] at hnors
    · exact Option.bind_eq_none_iff.mpr fun ands hands => by
        simp [compileItems_eq_none ⟨child, hand, hnone⟩] at hands
    · refine Option.bind_eq_none_iff.mpr fun ands _ => Option.bind_eq_none_iff.mpr fun nots _ =>
        Option.bind_eq_none_iff.mpr fun nors _ => ?_
      exact Option.bind_eq_none_iff.mpr fun ors hors => by
        simp [compileItems_eq_none ⟨child, hor, hnone⟩] at hors

end SqlFilter.Expr
