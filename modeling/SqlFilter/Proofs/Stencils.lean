import Mathlib.Data.List.Basic
import SqlFilter.Proofs.Emptiness
import SqlFilter.Proofs.Preorder
import SqlFilter.Proofs.Renumbering

set_option relaxedAutoImplicit false
set_option autoImplicit false

/-!
# What a filter contributes to any scope

A filter can be compiled in a scope that has parameters and has counted nodes. All that this changes in
the text of the filter are the numbers in the names of its parameters, and these are moved by the number
of nodes that were counted before. So a filter has one blueprint for all scopes: a text with holes, where
each hole knows its field, its position and how far into the filter its node stands.

## Design

A blueprint is read off the predicate of a filter that stands first. Behind other nodes the predicate is
the same with every number moved, and a text with moved numbers is the stencil of the first one, filled
in.

## Main definitions

* `Hole`, `Stencil`, `Stencil.fill` — texts with holes, and how they are filled.
* `Chain.stencil`, `Chain.slots` — the stencil of a predicate, and what it binds.
* `Blueprint`, `Expr.blueprint` — what a filter contributes, wherever it stands.

## Main results

* `Expr.compile_add` — the predicate behind other nodes is the first one with moved numbers.
* `Chain.text_renumber_add` — the text of a predicate with moved numbers fills its stencil.
* `Scope.filter_eq_blueprint` — a filter adds to a scope what its blueprint says.
-/

namespace SqlFilter

/-! ## Stencils -/

/-- A place for a placeholder, whose node stands a number of nodes after those counted before. -/
structure Hole where
  field : String
  offset : Nat
  position : Nat
deriving DecidableEq

/-- The name of the parameter of a hole, behind a number of nodes. -/
def Hole.parameter (before : Nat) (h : Hole) : String :=
  parameterName h.field (before + h.offset) h.position

/-- A piece of a stencil. -/
inductive Stencil.Item where
  | text (s : String)
  | hole (h : Hole)
deriving DecidableEq

/-- A text with holes. -/
abbrev Stencil : Type := List Stencil.Item

namespace Stencil

/-- The text of a piece, behind a number of nodes. -/
def Item.fill (before : Nat) : Item → String
  | .text s => s
  | .hole h => placeholder (h.parameter before)

/-- A stencil with its holes filled, behind a number of nodes. -/
def fill (before : Nat) (t : Stencil) : String := String.join (t.map (Item.fill before))

/-- The holes of a stencil. -/
def holes (t : Stencil) : List Hole :=
  t.filterMap fun
    | .text _ => none
    | .hole h => some h

variable (before : Nat)

@[simp] theorem fill_nil : fill before [] = "" := rfl

@[simp] theorem fill_cons (item : Item) (t : Stencil) :
    fill before (item :: t) = item.fill before ++ fill before t := by
  rw [fill, List.map_cons, String.join_cons, fill]

@[simp] theorem fill_append (a b : Stencil) :
    fill before (a ++ b) = fill before a ++ fill before b := by
  rw [fill, List.map_append, String.join_append, fill, fill]

/-- Joined stencils are filled one by one. -/
theorem fill_intercalate (separator : String) (ts : List Stencil) :
    fill before ([Item.text separator].intercalate ts) =
      separator.intercalate (ts.map (fill before)) := by
  induction ts with
  | nil => rfl
  | cons t ts ih =>
    cases ts with
    | nil => simp
    | cons u ts =>
      rw [List.intercalate_cons_cons, fill_append, fill_append, ih]
      simp [String.intercalate_cons_cons, Item.fill]

end Stencil

/-! ## Stencils of predicates -/

/-- The hole of the parameter of a condition. -/
def Condition.hole (d : Condition) : Hole := ⟨d.field, d.node, d.position⟩

/-- The hole that a condition fills, with its operand. A null test fills none. -/
def Condition.slot? (d : Condition) : Option (Hole × Json) :=
  d.test.operand?.map fun operand => (d.hole, operand)

section

variable (naming : Naming)

/-- The stencil of a condition. -/
def Condition.stencil (d : Condition) : Stencil :=
  .text (naming.column d.field ++ " ") ::
    match d.test with
    | .compare o _ =>
      .text (o.token ++ " ") ::
        if o.isMembership then [.text "(", .hole d.hole, .text ")"] else [.hole d.hole]
    | .null true => [.text "IS NULL"]
    | .null false => [.text "IS NOT NULL"]

mutual

/-- The stencil of a term. -/
def Term.stencil : Term → Stencil
  | .conditions joined list =>
    .text "(" :: ([.text joined.separator].intercalate (list.map (Condition.stencil naming))
      ++ [.text ")"])
  | .group chain => .text "(" :: (chainStencil chain ++ [.text ")"])
  | .not chain =>
    if 1 < chain.length then .text "NOT (" :: (chainStencil chain ++ [.text ")"])
    else .text "NOT " :: chainStencil chain

/-- The stencil of a chain: those of its terms with the links between them. -/
def chainStencil : List (Conjunction × Term) → Stencil
  | [] => []
  | (_, t) :: rest => t.stencil ++ linkedStencil rest

/-- The stencil of terms that follow others: each one after its link. -/
def linkedStencil : List (Conjunction × Term) → Stencil
  | [] => []
  | (c, t) :: rest => .text c.separator :: (t.stencil ++ linkedStencil rest)

end

/-- The stencil of a chain. -/
def Chain.stencil (chain : Chain) : Stencil := chainStencil naming chain

/-- The holes that a chain fills, with their operands, in the order of its text. -/
def Chain.slots (chain : Chain) : List (Hole × Json) := chain.conditions.filterMap Condition.slot?

/-- What a chain fills, term by term. -/
theorem Chain.slots_cons (link : Conjunction × Term) (chain : Chain) :
    Chain.slots (link :: chain) = link.2.allConditions.filterMap Condition.slot? ++ chain.slots := by
  rw [slots, conditions_cons, List.filterMap_append, slots]

/-! ## Moved numbers -/

variable (before : Nat)

/-- The text of a condition with a moved number fills its stencil. -/
theorem Condition.text_renumber_add (d : Condition) :
    (d.renumber (before + ·)).text naming = (d.stencil naming).fill before := by
  unfold text stencil renumber
  cases d.test with
  | compare o operand =>
    cases h : o.isMembership <;>
      simp [h, Stencil.Item.fill, hole, Hole.parameter, parameter, String.append_assoc]
  | null expected => cases expected <;> simp [Stencil.Item.fill]

/-- Renumbering keeps the number of terms. -/
theorem Chain.length_renumber (ρ : Nat → Nat) (chain : Chain) :
    (chain.renumber ρ).length = chain.length := by
  induction chain with
  | nil => simp
  | cons link chain ih => simp [ih]

/-- The text of a chain with moved numbers fills its stencil, if this holds of each term. -/
private theorem chainText_renumber_of_forall (chain : Chain)
    (h : ∀ link ∈ chain,
      (link.2.renumber (before + ·)).text naming = (link.2.stencil naming).fill before) :
    chainText naming (chain.renumber (before + ·)) = (chainStencil naming chain).fill before ∧
      linkedText naming (chain.renumber (before + ·)) =
        (linkedStencil naming chain).fill before := by
  induction chain with
  | nil => simp [chainText, linkedText, chainStencil, linkedStencil]
  | cons link chain ih =>
    obtain ⟨c, t⟩ := link
    have ht : (t.renumber (before + ·)).text naming = (t.stencil naming).fill before :=
      h (c, t) List.mem_cons_self
    have hrest := (ih fun link hlink => h link (List.mem_cons_of_mem _ hlink)).2
    rw [Chain.renumber_cons, chainText, linkedText, chainStencil, linkedStencil]
    simp [Stencil.Item.fill, ht, hrest, String.append_assoc]

/-- The text of a term with moved numbers fills its stencil. -/
theorem Term.text_renumber_add (t : Term) :
    (t.renumber (before + ·)).text naming = (t.stencil naming).fill before := by
  induction t using Term.inductionOn with
  | conditions joined list =>
    have hlist : (list.map (Condition.renumber (before + ·))).map (Condition.text naming) =
        (list.map (Condition.stencil naming)).map (Stencil.fill before) := by
      rw [List.map_map, List.map_map]
      exact List.map_congr_left fun d _ => d.text_renumber_add naming before
    rw [renumber_conditions, text, stencil, hlist, ← Stencil.fill_intercalate]
    simp [Stencil.Item.fill, String.append_assoc]
  | group chain ih =>
    have hchain := (chainText_renumber_of_forall naming before chain ih).1
    rw [renumber_group, text, stencil, hchain]
    simp [Stencil.Item.fill, String.append_assoc]
  | not chain ih =>
    have hchain := (chainText_renumber_of_forall naming before chain ih).1
    rw [renumber_not, text, stencil, hchain, Chain.length_renumber]
    split <;> simp [Stencil.Item.fill, String.append_assoc]

/-- **The text of a chain with moved numbers** fills its stencil. -/
theorem Chain.text_renumber_add (chain : Chain) :
    (chain.renumber (before + ·)).text naming = (chain.stencil naming).fill before :=
  (chainText_renumber_of_forall naming before chain fun link _ =>
    link.2.text_renumber_add naming before).1

end

/-- What a condition with a moved number binds: its operand, under the name that its hole has. -/
theorem Condition.binding?_renumber_add (before : Nat) (d : Condition) :
    (d.renumber (before + ·)).binding? = d.slot?.map fun b => (b.1.parameter before, b.2) := by
  rw [binding?_eq_map, slot?, Option.map_map]
  rfl

/-- **What a chain with moved numbers binds**: its operands, under the names that its holes have. -/
theorem Chain.bindings_renumber_add (before : Nat) (chain : Chain) :
    (chain.renumber (before + ·)).bindings =
      chain.slots.map fun b => (b.1.parameter before, b.2) := by
  rw [bindings, conditions_renumber, List.filterMap_map, slots, List.map_filterMap]
  exact List.filterMap_congr fun d _ => d.binding?_renumber_add before

/-! ## Every hole is bound -/

section

variable (naming : Naming)

namespace Stencil

@[simp] theorem holes_nil : holes [] = [] := rfl

@[simp] theorem holes_text (s : String) (t : Stencil) : holes (.text s :: t) = holes t := rfl

@[simp] theorem holes_hole (h : Hole) (t : Stencil) : holes (.hole h :: t) = h :: holes t := rfl

@[simp] theorem holes_append (a b : Stencil) : holes (a ++ b) = holes a ++ holes b :=
  List.filterMap_append

/-- The holes of joined stencils. -/
theorem holes_intercalate (separator : String) (ts : List Stencil) :
    holes ([Item.text separator].intercalate ts) = ts.flatMap holes := by
  induction ts with
  | nil => rfl
  | cons t ts ih =>
    cases ts with
    | nil => simp
    | cons u ts =>
      rw [List.intercalate_cons_cons, holes_append, holes_append, ih]
      simp

end Stencil

/-- The hole of a condition is the one that it fills. -/
theorem Condition.holes_stencil (d : Condition) :
    (d.stencil naming).holes = (d.slot?.map Prod.fst).toList := by
  unfold stencil slot?
  cases d.test with
  | compare o operand => cases h : o.isMembership <;> simp [h, Test.operand?]
  | null expected => cases expected <;> simp [Test.operand?]

/-- The holes of a chain are those of its conditions, if this holds of each term. -/
private theorem holes_chainStencil_of_forall (chain : Chain)
    (h : ∀ link ∈ chain, (link.2.stencil naming).holes =
      (link.2.allConditions.filterMap Condition.slot?).map Prod.fst) :
    (chainStencil naming chain).holes = chain.slots.map Prod.fst ∧
      (linkedStencil naming chain).holes = chain.slots.map Prod.fst := by
  induction chain with
  | nil => simp [chainStencil, linkedStencil, Chain.slots]
  | cons link chain ih =>
    obtain ⟨c, t⟩ := link
    have ht := h (c, t) List.mem_cons_self
    have hrest := (ih fun link hlink => h link (List.mem_cons_of_mem _ hlink)).2
    rw [chainStencil, linkedStencil, Chain.slots_cons, List.map_append, ← ht, ← hrest]
    simp

/-- The holes of a term are those of its conditions. -/
theorem Term.holes_stencil (t : Term) : (t.stencil naming).holes =
    (t.allConditions.filterMap Condition.slot?).map Prod.fst := by
  induction t using Term.inductionOn with
  | conditions joined list =>
    have hlist : list.flatMap (fun d => (d.stencil naming).holes) =
        (list.filterMap Condition.slot?).map Prod.fst := by
      rw [List.map_filterMap, List.filterMap_eq_flatMap_toList]
      exact List.flatMap_congr fun d _ => d.holes_stencil naming
    rw [stencil, allConditions_conditions, ← hlist]
    simp [Stencil.holes_intercalate, List.flatMap_map]
  | group chain ih =>
    have hchain := (holes_chainStencil_of_forall naming chain ih).1
    rw [stencil, allConditions_group, ← Chain.slots, ← hchain]
    simp
  | not chain ih =>
    have hchain := (holes_chainStencil_of_forall naming chain ih).1
    rw [stencil, allConditions_not, ← Chain.slots, ← hchain]
    split <;> simp

/-- **Every hole of a chain is filled**, each by the operand of its place. -/
theorem Chain.holes_stencil (chain : Chain) :
    (chain.stencil naming).holes = chain.slots.map Prod.fst :=
  (holes_chainStencil_of_forall naming chain fun link _ => link.2.holes_stencil naming).1

end

/-! ## Filters behind other nodes -/

/-- A fragment is told by its parts and by whether it is an alternative. -/
theorem Fragment.eq_of_parts_eq {f g : Fragment} (hparts : f.parts = g.parts)
    (halternative : f.isAlternative = g.isAlternative) : f = g := by
  cases f
  cases g
  exact (Fragment.mk.injEq ..).mpr ⟨hparts, halternative⟩

namespace Expr

/-- The predicate of a list of filters behind other nodes, if this is so for each filter. -/
private theorem compileAll_add_of_forall (es : List Expr)
    (h : ∀ e ∈ es, ∀ c before offset, (e.compile c (before + offset)).parts =
      ((e.compile c offset).renumber (before + ·)).parts) (c : Conjunction) (before offset : Nat) :
    compileAll es c (before + offset) =
      Chain.renumber (before + ·) (compileAll es c offset) := by
  induction es generalizing offset with
  | nil => rw [compileAll, compileAll, Chain.renumber_nil]
  | cons e es ih =>
    have hrest := ih (fun e he => h e (List.mem_cons_of_mem _ he)) (offset + e.nodes)
    rw [compileAll_cons, compileAll_cons, Chain.renumber_append,
      ← Fragment.chain_eq_renumber (h e List.mem_cons_self c before offset), ← hrest,
      Nat.add_assoc]

/-- **The predicate of a filter behind other nodes** is the one it has without them, with every number
moved by the number of these nodes.

**Proof sketch.** Induction on the filter. The numbers before which the children of a node stand are moved
like that of the node, and each combinator is applied before or after a renumbering. -/
theorem parts_compile_add (e : Expr) : ∀ (c : Conjunction) (before offset : Nat),
    (e.compile c (before + offset)).parts =
      ((e.compile c offset).renumber (before + ·)).parts := by
  induction e using inductionOn with
  | node maps not nor and or hand hnot hnor hor =>
    intro c before offset
    have hnotNumber : beforeNot and (before + offset) = before + beforeNot and offset := by
      simp only [beforeNot]
      omega
    have hnorNumber : beforeNor not and (before + offset) = before + beforeNor not and offset := by
      simp only [beforeNor, hnotNumber]
      omega
    have horNumber :
        beforeOr not nor and (before + offset) = before + beforeOr not nor and offset := by
      simp only [beforeOr, hnorNumber]
      omega
    rw [Fragment.renumber, compile_node, compile_node]
    -- the part of each combinator is made of a chain below, which is moved as a whole
    simp only [strictParts, hnotNumber, hnorNumber, horNumber, Nat.add_assoc,
      compileAll_add_of_forall _ hand, compileAll_add_of_forall _ hnot,
      compileAll_add_of_forall _ hnor, compileAll_add_of_forall _ hor, List.map_append,
      Chain.renumber_spliced, Chain.renumber_negated, Chain.renumber_grouped,
      OperatorMaps.renumber_parts]

/-- A filter behind other nodes has the fragment that it has without them, with moved numbers. -/
theorem compile_add (e : Expr) (c : Conjunction) (before offset : Nat) :
    e.compile c (before + offset) = (e.compile c offset).renumber (before + ·) := by
  have halternative : (e.compile c (before + offset)).isAlternative =
      ((e.compile c offset).renumber (before + ·)).isAlternative :=
    (e.isAlternative_compile c _).trans (e.isAlternative_compile c offset).symm
  exact Fragment.eq_of_parts_eq (e.parts_compile_add c before offset) halternative

end Expr

/-! ## Blueprints -/

/-- What a filter contributes to any scope that it is compiled in. -/
structure Blueprint where
  /-- The text, but for the numbers of the nodes. -/
  stencil : Stencil
  /-- The operands that are bound, each under the name of its hole. -/
  bindings : List (Hole × Json)
  /-- Keys are joined to the filter as an alternative. -/
  isAlternative : Bool
  /-- The number of parts. -/
  parts : Nat
  /-- The number of terms that stand in no parentheses. -/
  terms : Nat
  /-- Every hole is bound, in the order of the text. -/
  holes_stencil : stencil.holes = bindings.map Prod.fst

/-- The blueprint of a filter under a conjunction. -/
def Expr.blueprint (naming : Naming) (e : Expr) (c : Conjunction) : Blueprint :=
  let fragment := e.compile c 0
  { stencil := fragment.chain.stencil naming
    bindings := fragment.chain.slots
    isAlternative := fragment.isAlternative
    parts := fragment.parts.length
    terms := fragment.terms
    holes_stencil := fragment.chain.holes_stencil naming }

/-- The parameters of a blueprint, behind a number of nodes. -/
def Blueprint.parameters (before : Nat) (b : Blueprint) : List (String × Json) :=
  b.bindings.map fun slot => (slot.1.parameter before, slot.2)

/-- **A filter adds to a scope what its blueprint says.** A filter and a conjunction have one blueprint for
every naming, whatever the scope has bound and counted before.

- The text is the stencil, each hole filled by the placeholder of its field, its position and the number
  of its node, which is the offset of the hole behind the nodes counted before.
- Whether keys are joined as an alternative, the number of parts and that of terms are those of the
  blueprint.
- The scope has counted as many nodes more as the filter has, and its naming is the same.
- If no parameter that is there already is named like one of the blueprint's, then all of them are kept, in
  their order, and the parameters of the blueprint follow in theirs.

**Proof sketch.** The predicate behind other nodes is the predicate of the filter alone with every number
moved, and moving numbers shows only in the names of parameters. The new names are distinct, so entries
are only appended. -/
theorem Scope.filter_eq_blueprint (naming : Naming) (e : Expr) (c : Conjunction) (params : Params)
    (visited : Nat) :
    let b := e.blueprint naming c
    let result := Scope.filter ⟨naming, params, visited⟩ c (some e)
    result.1.text naming = b.stencil.fill visited ∧
      result.1.isAlternative = b.isAlternative ∧ result.1.parts.length = b.parts ∧
      result.1.terms = b.terms ∧
      result.2.naming = naming ∧ result.2.visited = visited + e.preorder.length ∧
      ((∀ name ∈ params.fields, name ∉ (b.parameters visited).map Prod.fst) →
        result.2.params.entries = params.entries ++ b.parameters visited) := by
  intro b result
  have hfragment : result.1 = (e.compile c 0).renumber (visited + ·) := e.compile_add c visited 0
  have hbindings : (e.compile c visited).chain.bindings = b.parameters visited := by
    have hchain : result.1.chain.bindings = b.parameters visited := by
      rw [hfragment, Fragment.chain_renumber, Chain.bindings_renumber_add]
      rfl
    exact hchain
  refine ⟨?_, ?_, ?_, ?_, rfl, ?_, fun hfresh => ?_⟩
  · rw [hfragment, Fragment.text, Fragment.chain_renumber, Chain.text_renumber_add]
    rfl
  · rw [hfragment]
    rfl
  · rw [hfragment]
    exact List.length_map _
  · rw [hfragment, Fragment.terms, Fragment.chain_renumber, Chain.length_renumber]
    rfl
  · rw [e.length_preorder]
    rfl
  · have hnodup : ((b.parameters visited).map Prod.fst).Nodup := by
      rw [← hbindings, Chain.bindings, e.conditions_compile]
      exact (e.placed_conditions visited).nodup_bindings
    have hall : (params.fields ++ (b.parameters visited).map Prod.fst).Nodup := by
      refine List.nodup_append.mpr ⟨params.nodup, hnodup, ?_⟩
      rintro name hname _ hmem rfl
      exact hfresh name hname hmem
    rw [← FieldMap.entries_insertAll_of_nodup params hall, ← hbindings]
    rfl

/-- A filter with operators, a null test and all four combinators. -/
def Expr.branching : Expr :=
  .node
    (fun
      | .gt => some (.ofList [("a", .num (.int 1))])
      | .null => some (.ofList [("b", true)])
      | .member => some (.ofList [("c", [.str "x", .str "y"])])
      | _ => none)
    (some (.node (fun | .eq => some (.ofList [("d", .num (.int 2)), ("e", .num (.int 3))]) | _ => none)
      none none none none))
    (some (.node .none none none none
      (some [.node (fun | .like => some (.ofList [("a", "%")]) | _ => none) none none none none])))
    (some [.empty])
    (some [.node (fun | .ne => some (.ofList [("a", .num (.int 4))]) | _ => none)
      none none none none])

/-- The filter with all combinators in a scope that has counted forty nodes and has bound a key and a
parameter of the first node. -/
theorem Scope.filter_eq_blueprint_branching :
    let naming : Naming := ⟨"t", .none⟩
    let params : Params := .ofList [("tenant", .str "acme"), ("a_1_0", .num (.int 9))]
    let result := Scope.filter ⟨naming, params, 40⟩ .or (some Expr.branching)
    (∀ name ∈ params.fields,
        name ∉ ((Expr.branching.blueprint naming .or).parameters 40).map Prod.fst) ∧
      result.1.text naming = "(t.a > :a_41_0) OR (t.c IN (:c_41_1)) OR (t.b IS NULL) " ++
        "OR NOT (t.d = :d_43_0 AND t.e = :e_43_1) OR NOT ((t.a LIKE :a_45_0)) OR ((t.a <> :a_46_0))" ∧
      result.2.visited = 46 ∧
      result.2.params.entries = [("tenant", .str "acme"), ("a_1_0", .num (.int 9)),
        ("a_41_0", .num (.int 1)), ("c_41_1", .arr [.str "x", .str "y"]), ("d_43_0", .num (.int 2)),
        ("e_43_1", .num (.int 3)), ("a_45_0", .str "%"), ("a_46_0", .num (.int 4))] := by
  intro naming params result
  obtain ⟨htext, -, -, -, -, hvisited, hentries⟩ :=
    Scope.filter_eq_blueprint naming Expr.branching .or params 40
  have hfresh : ∀ name ∈ params.fields,
      name ∉ ((Expr.branching.blueprint naming .or).parameters 40).map Prod.fst := by decide +kernel
  exact ⟨hfresh, htext.trans (by decide +kernel), hvisited.trans (by decide +kernel),
    (hentries hfresh).trans rfl⟩

end SqlFilter
