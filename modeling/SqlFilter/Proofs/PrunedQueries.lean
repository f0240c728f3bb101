import SqlFilter.Proofs.Parameters
import SqlFilter.Proofs.Pruning
import SqlFilter.Proofs.Renumbering

set_option relaxedAutoImplicit false
set_option autoImplicit false

/-!
# Compiling pruned filters

A pruned filter asks the same as the whole one: its predicate has the same conditions in the same
parentheses, and only the numbers of the nodes are smaller, since those that are removed count no more.

Pruning is not quite without effect, though. A `nor` that stands beside an `or` is no alternative to the
keys, even if the list of `or` is empty, and vice versa; but once the empty one of the two is removed,
the other one stands alone. So keys may be joined to a filter and to the pruned one in different ways,
and this is the only case.

## Main definitions

* `Expr.hasNorAndOr`, `Expr.saysOneAlternative` — what is there, and what says something.

## Main results

* `Expr.parts_compile_prune` — a pruned tree compiles to the same parts, renumbered.
* `Expr.map_snd_bindings_prune` — a pruned tree has the same operands.
* `Expr.standsAsAlternative_eq`, `Expr.standsAsAlternative_prune` — trees and pruned trees as
  alternatives.
* `Query.compile_prune` — conditions and bound values of keys and a pruned filter.
-/

namespace SqlFilter

namespace Expr

section

variable {marks : List Bool} {before : Nat}

/-! ## Parts -/

/-- A pruned list of trees compiles to the chain of the list, renumbered, if each tree compiles to the
same parts.

**Proof sketch.** Induction on the list. The chain of a tree that is removed is empty, and none of its
nodes counts. -/
private theorem compileAll_pruneAll_of_forall (es : List Expr)
    (h : ∀ e ∈ es, ∀ c before, Stands marks before e.marks →
      (e.prune.compile c (newNumber marks before)).parts =
        ((e.compile c before).renumber (newNumber marks)).parts)
    (c : Conjunction) (before : Nat) (hstands : Stands marks before (marksAll es)) :
    compileAll (pruneAll es) c (newNumber marks before) =
      Chain.renumber (newNumber marks) (compileAll es c before) := by
  induction es generalizing before with
  | nil => rw [pruneAll, compileAll, compileAll, Chain.renumber_nil]
  | cons e es ih =>
    obtain ⟨hfirst, hrest⟩ := stands_marksAll_cons hstands
    have htail := ih (fun e' he' => h e' (by simp [he'])) (before + e.nodes) hrest
    rw [compileAll_cons, Chain.renumber_append, ← htail, pruneAll]
    split at hfirst
    · rename_i he
      have hempty : (e.compile c before).chain = [] :=
        (e.chain_eq_nil_iff c before).mpr (List.isEmpty_iff.mp he)
      have hnumber : newNumber marks (before + e.nodes) = newNumber marks before := by
        simpa [List.count_replicate] using hfirst.newNumber_add
      rw [if_pos he, hempty, Chain.renumber_nil, List.nil_append, hnumber]
    · rename_i he
      have hchain : (e.prune.compile c (newNumber marks before)).chain =
          (e.compile c before).chain.renumber (newNumber marks) :=
        Fragment.chain_eq_renumber (h e (by simp) c before hfirst)
      have hnumber : newNumber marks (before + e.nodes) =
          newNumber marks before + e.prune.nodes := by
        rw [← length_marks, hfirst.newNumber_add, count_marks]
      rw [if_neg he, compileAll_cons, hchain, hnumber]

/-- **A pruned tree compiles to the same parts**, renumbered, wherever the tree stands among others that
stay or are removed.

**Proof sketch.** Induction on the tree. The parts of the root's maps are those of the maps that have a
field. A combinator of children makes the same of a chain before and after it is renumbered, and the
new numbers before which the children stand are those of the nodes that stay before them. -/
theorem parts_compile_prune_of_stands (e : Expr) :
    ∀ (c : Conjunction) (before : Nat), Stands marks before e.marks →
      (e.prune.compile c (newNumber marks before)).parts =
        ((e.compile c before).renumber (newNumber marks)).parts := by
  induction e using inductionOn with
  | node maps not nor and or hand hnot hnor hor =>
    intro c before hstands
    have hchildren := childrenStand_of_stands hstands
    have hands := compileAll_pruneAll_of_forall _ hand .and _ hchildren.ands
    have hnots := compileAll_pruneAll_of_forall _ hnot .and _ hchildren.nots
    have hnors := compileAll_pruneAll_of_forall _ hnor .or _ hchildren.nors
    have hors := compileAll_pruneAll_of_forall _ hor .or _ hchildren.ors
    rw [newNumber_succ hchildren.root] at hands
    rw [hchildren.newNumber_beforeNot] at hnots
    rw [hchildren.newNumber_beforeNor] at hnors
    rw [hchildren.newNumber_beforeOr] at hors
    rw [prune_node, compile_node, compile_node, Fragment.renumber, strictParts, strictParts]
    simp only [List.map_append, OperatorMaps.renumber_parts, Chain.renumber_spliced,
      Chain.renumber_negated, Chain.renumber_grouped, maps.parts_prune, getD_pruneItems,
      toList_pruneChild, newNumber_succ hchildren.root, hands, hnots, hnors, hors]

end

/-- **A pruned tree compiles to the same parts**, renumbered. -/
theorem parts_compile_prune (e : Expr) (c : Conjunction) :
    (e.prune.compile c 0).parts = ((e.compile c 0).renumber e.pruneNumber).parts :=
  e.parts_compile_prune_of_stands c 0 (List.prefix_refl _)

/-- **Pruning keeps the operands** and their order. -/
theorem map_snd_bindings_prune (e : Expr) :
    e.prune.bindings.map Prod.snd = e.bindings.map Prod.snd := by
  have hbindings (e : Expr) : e.bindings = (e.compile .and 0).chain.bindings := by
    rw [Chain.bindings, conditions_compile, bindings]
  have hchain : (e.prune.compile .and 0).chain =
      (e.compile .and 0).chain.renumber e.pruneNumber :=
    Fragment.chain_eq_renumber (e.parts_compile_prune .and)
  rw [hbindings, hbindings, hchain, Chain.map_snd_bindings_renumber]

/-! ## Pruned alternatives -/

/-- The root has both a `nor` and an `or`, whatever these say. -/
def hasNorAndOr : Expr → Bool
  | .node _ _ nor _ or => nor.isSome && or.isSome

/-- Fields are tested either below `nor` or below `or`, and nowhere else in the tree. -/
def saysOneAlternative : Expr → Bool
  | .node maps not nor and or =>
    maps.fields.isEmpty && (fieldsAll (and.getD [])).isEmpty && (fieldsAll not.toList).isEmpty &&
      ((fieldsAll nor.toList).isEmpty != (fieldsAll (or.getD [])).isEmpty)

/-- A tree that says one alternative stands as one, unless it has both a `nor` and an `or`. -/
theorem standsAsAlternative_eq (e : Expr) :
    e.standsAsAlternative = (e.saysOneAlternative && !e.hasNorAndOr) := by
  obtain ⟨maps, not, nor, and, or⟩ := e
  rw [standsAsAlternative, saysOneAlternative, hasNorAndOr, Bool.and_assoc _ _ (!_)]
  congr 1
  cases nor <;> cases or <;> simp [fieldsAll]

/-- **A tree that says one alternative stands as one once it is pruned.** -/
theorem standsAsAlternative_prune (e : Expr) :
    e.prune.standsAsAlternative = e.saysOneAlternative := by
  obtain ⟨maps, not, nor, and, or⟩ := e
  have hnor : (pruneChild nor).isNone = (fieldsAll nor.toList).isEmpty := by
    rw [pruneChild, Bool.eq_iff_iff, List.isEmpty_iff, ← pruneAll_eq_nil_iff]
    cases pruneAll nor.toList <;> simp
  have hor : (pruneItems or).isNone = (fieldsAll (or.getD [])).isEmpty := by
    rw [pruneItems, isNone_items?, Bool.eq_iff_iff, List.isEmpty_iff, List.isEmpty_iff,
      pruneAll_eq_nil_iff]
  rw [prune_node, standsAsAlternative, saysOneAlternative]
  simp only [maps.fields_prune, getD_pruneItems, toList_pruneChild, fieldsAll_pruneAll, hnor, hor]
  congr 1
  cases (fieldsAll nor.toList).isEmpty <;> cases (fieldsAll (or.getD [])).isEmpty <;> rfl

end Expr

/-! ## Queries -/

/-- A query with a pruned filter. -/
def Query.prune (q : Query) : Query := { q with filter := q.filter.prune }

/-- **Parts that say nothing change nothing**, but for the way in which keys are joined to a root that has
both a `nor` and an `or`.

- The conditions of keys and filter and of keys and pruned filter are joined from the same text, up to
  the numbers of the nodes. The new numbers are in the same order as the old ones.
- The pruned filter is an alternative to the keys if fields are tested either below the `nor` or below
  the `or` of the root, and nowhere else. The filter is one if, besides, the root does not have both.
- So the conditions are the same up to the numbers, unless the root has both a `nor` and an `or`, only
  one of these says anything, and nothing else in the root does.
- If no key is named like a parameter of either filter, which would take its place, the same values are
  bound in the same order.

**Proof sketch.** Of a tree in which no field is tested nothing is left in the predicate, so a node is
the same without it, but for the numbers of the nodes that follow. Whether a root is an alternative
depends on which of `nor` and `or` are there, and pruning changes this only if both are. -/
theorem Query.compile_prune (options : CompilerOptions) (keys : Keys) (q : Query) :
    let naming := options.naming
    let keysText := Scope.keysText naming keys
    let fragment := q.filter.compile .and 0
    let renumbered := fragment.renumber q.filter.pruneNumber
    let compiled := q.compile options keys
    let pruned := q.prune.compile options keys
    StrictMonoOn q.filter.pruneNumber
      {number | ∃ d ∈ fragment.chain.conditions, d.node = number} ∧
    compiled.condition = joinKeys naming keysText fragment ∧
    pruned.condition = joinKeys naming keysText
      { renumbered with isAlternative := q.filter.saysOneAlternative } ∧
    fragment.isAlternative = (q.filter.saysOneAlternative && !q.filter.hasNorAndOr) ∧
    ((q.filter.saysOneAlternative && q.filter.hasNorAndOr) = false →
      pruned.condition = joinKeys naming keysText renumbered) ∧
    ((∀ k ∈ keys.fields, k ∉ q.filter.parameters ∧ k ∉ q.prune.filter.parameters) →
      pruned.params.entries.map Prod.snd = compiled.params.entries.map Prod.snd) := by
  intro naming keysText fragment renumbered compiled pruned
  have hparts : (q.filter.prune.compile .and 0).parts = renumbered.parts :=
    q.filter.parts_compile_prune .and
  have halternative : (q.filter.prune.compile .and 0).isAlternative =
      q.filter.saysOneAlternative := by
    rw [Expr.isAlternative_compile, Expr.standsAsAlternative_prune]
  have hpruned : pruned.condition = joinKeys naming keysText
      { renumbered with isAlternative := q.filter.saysOneAlternative } := by
    rw [← hparts, ← halternative]
    rfl
  have hfragment : fragment.isAlternative =
      (q.filter.saysOneAlternative && !q.filter.hasNorAndOr) := by
    rw [Expr.isAlternative_compile, Expr.standsAsAlternative_eq]
  refine ⟨?_, rfl, hpruned, hfragment, fun hsame => ?_, fun hfresh => ?_⟩
  · rw [Expr.conditions_compile]
    exact q.filter.pruneNumber_strictMonoOn
  · have hkept : renumbered.isAlternative = q.filter.saysOneAlternative := by
      have hrenumbered : renumbered.isAlternative = fragment.isAlternative := rfl
      rw [hrenumbered, hfragment]
      cases hone : q.filter.saysOneAlternative with
      | false => rfl
      | true =>
        rw [hone, Bool.true_and] at hsame
        rw [hsame]
        rfl
    rw [hpruned, ← hkept]
  · rw [q.entries_params_of_fresh options keys fun k hk => (hfresh k hk).1,
      q.prune.entries_params_of_fresh options keys fun k hk => (hfresh k hk).2,
      List.map_append, List.map_append]
    exact congrArg _ q.filter.map_snd_bindings_prune

/-- A node that asks for one value of one field. -/
def Expr.asking (field : String) (value : Int) : Expr :=
  .node (fun | .eq => some (.ofList [(field, .num (.int value))]) | _ => none) none none none none

/-- A query with empty parts of all kinds. -/
def sprinkledQuery : Query :=
  { Query.empty with
    filter := .node
      (fun | .eq => some .empty | .ne => some (.ofList [("a", .num (.int 1))]) | _ => none)
      (some .empty) none (some [.empty, .asking "b" 2, .node .none none none none (some [])])
      (some [.empty, .asking "c" 3]) }

/-- A query with empty parts of all kinds and the pruned query: the same condition but for the numbers
in the names of two parameters, and the same values. -/
theorem Query.compile_prune_sprinkledQuery :
    let keys : Keys := .ofList [("tenant", .str "acme")]
    (sprinkledQuery.compile .default keys).condition =
        "target.tenant = :tenant AND (target.a <> :a_1_0) AND (target.b = :b_3_0) " ++
          "AND ((target.c = :c_7_0))" ∧
      (sprinkledQuery.prune.compile .default keys).condition =
        "target.tenant = :tenant AND (target.a <> :a_1_0) AND (target.b = :b_2_0) " ++
          "AND ((target.c = :c_3_0))" ∧
      (sprinkledQuery.prune.compile .default keys).params.entries.map Prod.snd =
        (sprinkledQuery.compile .default keys).params.entries.map Prod.snd := by
  intro keys
  obtain ⟨-, hcondition, -, -, hsame, hvalues⟩ :=
    Query.compile_prune .default keys sprinkledQuery
  exact ⟨hcondition.trans (by decide +kernel), (hsame (by decide)).trans (by decide +kernel),
    hvalues (by decide +kernel)⟩

/-- A query whose root has a `nor` and an empty `or`. -/
def emptyOrQuery : Query :=
  { Query.empty with
    filter := .node .none none (some (.asking "a" 1)) none (some []) }

/-- **An empty list changes the way in which keys are joined**: beside an empty `or` a `nor` is joined to
the key by `AND`, and without it by `OR`, so that no numbering makes the conditions the same.

**Proof sketch.** Both conditions are evaluated. Whatever text the renumbered fragment has, it is
still no alternative, so `AND` follows the key, where the pruned condition has `OR`. -/
theorem Query.keyword_changes_emptyOrQuery :
    let keys : Keys := .ofList [("id", .num (.int 5))]
    let fragment := emptyOrQuery.filter.compile .and 0
    (emptyOrQuery.compile .default keys).condition =
        "target.id = :id AND NOT (target.a = :a_2_0)" ∧
      (emptyOrQuery.prune.compile .default keys).condition =
        "target.id = :id OR NOT (target.a = :a_2_0)" ∧
      ∀ ρ : Nat → Nat, (emptyOrQuery.prune.compile .default keys).condition ≠
        joinKeys CompilerOptions.default.naming
          (Scope.keysText CompilerOptions.default.naming keys) (fragment.renumber ρ) := by
  intro keys fragment
  have hpruned : (emptyOrQuery.prune.compile .default keys).condition =
      "target.id = :id OR NOT (target.a = :a_2_0)" := by decide +kernel
  refine ⟨by decide +kernel, hpruned, fun ρ hsame => ?_⟩
  have hkeys : Scope.keysText CompilerOptions.default.naming keys = "target.id = :id" := by
    decide +kernel
  have hstrict : (fragment.renumber ρ).isAlternative = false := by
    show fragment.isAlternative = false
    decide +kernel
  rw [hpruned, hkeys, joinKeys, hstrict] at hsame
  split at hsame
  · rename_i hempty
    exact absurd hempty (by decide)
  · split at hsame
    · exact absurd hsame (by decide)
    · -- the text of the fragment may be any, but what stands before it is `AND`
      have hprefix : "target.id = :id AND ".toList <+:
          "target.id = :id OR NOT (target.a = :a_2_0)".toList := by
        rw [hsame, String.toList_append]
        exact ⟨_, rfl⟩
      exact absurd hprefix (by decide)

end SqlFilter
