import SqlFilter.Draft
import SqlFilter.Proofs.TermCounts

set_option relaxedAutoImplicit false
set_option autoImplicit false

/-!
# Fragments and their drafts

A filter is compiled to its parts, and everything else is read off them: the text, the numbers of parts and
terms, the number of nodes, the parameters, and whether it stands as an alternative. A draft has all of
this written and counted on one pass over the tree. Both come to the same.

## Design

The counts of a draft are right for the parts that were added so far, which every step keeps. A list of
nodes has no fragment of its own. What its draft says is told by its chain, and only that is used of it.

## Main definitions

* `Fragment.draft` — the draft that has the parts of a fragment.
* `Draft.Says` — a draft that says what a chain says.
* `Scope.after` — a scope after a number of nodes and parameters.
* `Scope.Drafts` — a draft and a scope that are right for a child.

## Main results

* `Fragment.push_draft` — one more part.
* `Scope.draftMaps_eq`, `Scope.draftItems_eq` — the operator maps of a node, and a list of nodes.
* `Scope.draftsNode` — a node is drafted as it is compiled.
* `Scope.draft_eq_filter` — so is a filter that may be absent.
-/

namespace SqlFilter

/-! ## Drafts of fragments -/

/-- The draft that has the parts of a fragment. -/
def Fragment.draft (naming : Naming) (f : Fragment) : Draft :=
  ⟨f.text naming, f.isAlternative, f.parts.length, f.terms⟩

/-- A draft says what a chain says. -/
structure Draft.Says (naming : Naming) (chain : Chain) (d : Draft) : Prop where
  text_eq : d.text = chain.text naming
  terms_eq : d.terms = chain.length
  isEmpty_eq : d.isEmpty = chain.isEmpty

section

variable {naming : Naming} {c : Conjunction}

/-- The text of a single term. -/
theorem Chain.text_singleton (c : Conjunction) (t : Term) :
    Chain.text naming [(c, t)] = t.text naming := by
  rw [Chain.text, chainText, linkedText, String.append_empty]

/-- The empty chain has the empty text. -/
theorem Chain.text_nil : Chain.text naming [] = "" := by
  rw [Chain.text, chainText]

/-- The empty draft says nothing. -/
theorem Draft.says_empty : Draft.empty.Says naming [] := ⟨Chain.text_nil.symm, rfl, rfl⟩

/-- The empty draft has no part. -/
theorem Draft.empty_eq (naming : Naming) : Draft.empty = Fragment.empty.draft naming := by
  rw [Draft.empty, Fragment.draft, Fragment.text, Fragment.terms, Fragment.chain, Fragment.empty,
    List.flatten_nil, Chain.text_nil, List.length_nil, List.length_nil]

/-- A draft is empty if it has no part. -/
theorem Fragment.isEmpty_draft {parts : List Chain} {flag : Bool} :
    (Fragment.draft naming ⟨parts, flag⟩).isEmpty = parts.isEmpty := by
  rw [Bool.eq_iff_iff, Draft.isEmpty, decide_eq_true_iff, List.isEmpty_iff]
  exact List.length_eq_zero_iff

/-- Parts that are linked are empty together only if there are none. -/
theorem Chain.flatten_eq_nil_iff {parts : List Chain} (h : ∀ part ∈ parts, part.StartsWith c) :
    parts.flatten = [] ↔ parts = [] := by
  have hlength := Chain.length_le_length_flatten h
  constructor
  · intro hflatten
    rw [hflatten] at hlength
    exact List.eq_nil_of_length_eq_zero (Nat.le_zero.mp hlength)
  · rintro rfl
    rfl

namespace Fragment

variable {parts : List Chain} {flag : Bool} {inner : Draft} {chain : Chain}

/-- **A mark** is set only for a child that says anything. -/
theorem mark_draft (hinner : inner.Says naming chain) (isLone : Bool) :
    ((⟨parts, flag⟩ : Fragment).draft naming).mark inner isLone =
      (⟨parts, flag || isLone && !chain.isEmpty⟩ : Fragment).draft naming := by
  rw [Draft.mark, hinner.isEmpty_eq]
  rfl

variable (h : ∀ part ∈ parts, part.StartsWith c)

include h

/-- The draft of a fragment says what its chain says. -/
theorem says_draft : ((⟨parts, flag⟩ : Fragment).draft naming).Says naming parts.flatten where
  text_eq := rfl
  terms_eq := rfl
  isEmpty_eq := by
    rw [isEmpty_draft, Bool.eq_iff_iff, List.isEmpty_iff, List.isEmpty_iff,
      Chain.flatten_eq_nil_iff h]

/-- **One more part.**

**Proof sketch.** The separator comes before every part but the first. In the text of all parts it is the
first link of the new part, which stands there if the parts before it have a term; and they have one, unless
there are none. The numbers of parts and terms add up. -/
theorem push_draft {part : Chain} (hpart : part.StartsWith c) :
    ((⟨parts, flag⟩ : Fragment).draft naming).push c (part.text naming) part.length =
      (⟨parts ++ [part], flag⟩ : Fragment).draft naming := by
  have htext : (if (Fragment.draft naming ⟨parts, flag⟩).isEmpty then Chain.text naming parts.flatten
      else Chain.text naming parts.flatten ++ c.separator) ++ part.text naming =
        Chain.text naming (parts ++ [part]).flatten := by
    rw [isEmpty_draft, List.flatten_append, List.flatten_singleton]
    by_cases hparts : parts = []
    · rw [if_pos (List.isEmpty_iff.mpr hparts), hparts, List.flatten_nil, Chain.text_nil,
        String.empty_append, List.nil_append]
    · have hflatten : parts.flatten ≠ [] := mt (Chain.flatten_eq_nil_iff h).mp hparts
      obtain ⟨t, rest, rfl⟩ := hpart
      rw [if_neg (mt List.isEmpty_iff.mp hparts), Chain.text_append_cons hflatten]
  have hparts : parts.length + 1 = (parts ++ [part]).length := by simp
  have hterms : parts.flatten.length + part.length = (parts ++ [part]).flatten.length := by simp
  rw [Draft.push, draft, draft, Draft.mk.injEq]
  exact ⟨htext, rfl, hparts, hterms⟩

variable (hinner : inner.Says naming chain)

include hinner

/-- A part that is added unless a child says nothing. -/
theorem add_draft {part : Chain} (hpart : chain ≠ [] → part.StartsWith c) :
    (if inner.isEmpty then (⟨parts, flag⟩ : Fragment).draft naming
      else ((⟨parts, flag⟩ : Fragment).draft naming).push c (part.text naming) part.length) =
      (⟨parts ++ if chain.isEmpty then [] else [part], flag⟩ : Fragment).draft naming := by
  rw [hinner.isEmpty_eq]
  by_cases hchain : chain = []
  · rw [if_pos (List.isEmpty_iff.mpr hchain), if_pos (List.isEmpty_iff.mpr hchain), List.append_nil]
  · rw [if_neg (mt List.isEmpty_iff.mp hchain), if_neg (mt List.isEmpty_iff.mp hchain),
      push_draft h (hpart hchain)]

/-- The terms of a list are added as they are. -/
theorem splice_draft : ((⟨parts, flag⟩ : Fragment).draft naming).splice c inner =
    (⟨parts ++ chain.spliced c, flag⟩ : Fragment).draft naming := by
  rw [Draft.splice, hinner.text_eq, hinner.terms_eq, ← Chain.text_linkedBy c,
    ← Chain.length_linkedBy c, Chain.spliced]
  refine add_draft h hinner fun hne => ?_
  obtain ⟨link, rest, rfl⟩ := List.exists_cons_of_ne_nil hne
  exact ⟨link.2, rest, rfl⟩

/-- A negated child is a single term. -/
theorem deny_draft : ((⟨parts, flag⟩ : Fragment).draft naming).deny c inner =
    (⟨parts ++ chain.negated c, flag⟩ : Fragment).draft naming := by
  have hnegated : inner.negated = Chain.text naming [(c, .not chain)] := by
    rw [Draft.negated, hinner.text_eq, hinner.terms_eq, Chain.text_singleton, Term.text]
    rfl
  rw [Draft.deny, hnegated, Chain.negated]
  exact add_draft h hinner fun _ => ⟨.not chain, [], rfl⟩

/-- A list in parentheses is a single term. -/
theorem group_draft : ((⟨parts, flag⟩ : Fragment).draft naming).group c inner =
    (⟨parts ++ chain.grouped c, flag⟩ : Fragment).draft naming := by
  have hgroup : "(" ++ inner.text ++ ")" = Chain.text naming [(c, .group chain)] := by
    rw [hinner.text_eq, Chain.text_singleton, Term.text]
    rfl
  rw [Draft.group, hgroup, Chain.grouped]
  exact add_draft h hinner fun _ => ⟨.group chain, [], rfl⟩

end Fragment

end

/-! ## Scopes between nodes -/

/-- Chains in a row bind their parameters one after the other. -/
theorem Chain.bindings_append (a b : Chain) :
    Chain.bindings (a ++ b) = a.bindings ++ b.bindings := by
  rw [Chain.bindings, Chain.conditions_append, List.filterMap_append]
  rfl

/-- Only the conditions of a chain bind parameters. -/
theorem Chain.bindings_congr {a b : Chain} (h : a.conditions = b.conditions) :
    a.bindings = b.bindings := by
  rw [Chain.bindings, h, Chain.bindings]

/-- The parameters of a node are those of its operator maps and then those of its children. -/
theorem Expr.bindings_compile_node (maps : OperatorMaps) (not nor : Option Expr)
    (and or : Option (List Expr)) (c : Conjunction) (before : Nat) :
    ((Expr.node maps not nor and or).compile c before).chain.bindings =
      Chain.bindings (maps.parts c (before + 1)).flatten
        ++ Chain.bindings (compileAll (and.getD []) .and (before + 1))
        ++ Chain.bindings (compileAll not.toList .and (beforeNot and before))
        ++ Chain.bindings (compileAll nor.toList .or (beforeNor not and before))
        ++ Chain.bindings (compileAll (or.getD []) .or (beforeOr not nor and before)) := by
  rw [compile_node, strictParts, Fragment.chain]
  simp only [List.flatten_append, Chain.bindings_append]
  rw [Chain.bindings_congr (Chain.conditions_spliced c _),
    Chain.bindings_congr (Chain.conditions_negated c _),
    Chain.bindings_congr (Chain.conditions_negated c _),
    Chain.bindings_congr (Chain.conditions_grouped c _)]

/-- The chain of a compiled filter is linked by the conjunction that the filter stands under. -/
theorem Expr.linkedBy_chain_compile (e : Expr) (c : Conjunction) (before : Nat) :
    (e.compile c before).chain.linkedBy c = (e.compile c before).chain := by
  obtain ⟨maps, not, nor, and, or⟩ := e
  have hstarts := (consistsOf_compile maps not nor and or c before).startsWith
  rw [Fragment.chain]
  cases hparts : ((Expr.node maps not nor and or).compile c before).parts with
  | nil => rfl
  | cons part rest =>
    obtain ⟨t, links, rfl⟩ := hstarts part (by simp [hparts])
    rfl

namespace Scope

/-- A scope after a number of nodes and some parameters. -/
def after (s : Scope) (nodes : Nat) (bindings : List (String × Json)) : Scope :=
  { s with visited := s.visited + nodes }.bind bindings

@[simp] theorem after_naming (s : Scope) (nodes : Nat) (bindings : List (String × Json)) :
    (s.after nodes bindings).naming = s.naming := rfl

@[simp] theorem after_visited (s : Scope) (nodes : Nat) (bindings : List (String × Json)) :
    (s.after nodes bindings).visited = s.visited + nodes := rfl

/-- Nodes and parameters come one after the other. -/
theorem after_after (s : Scope) (m n : Nat) (a b : List (String × Json)) :
    (s.after m a).after n b = s.after (m + n) (a ++ b) := by
  simp [after, bind, FieldMap.insertAll, Nat.add_assoc]

/-- **The operator maps of a node** add their parts and bind their parameters.

**Proof sketch.** Induction on the maps, for any parts that are there already. A map without a field has no
part, binds nothing and takes no position. Any other is one more part of a single term, and the next map
starts behind its conditions; the parameters of the maps are those of their chains in a row. -/
theorem draftMaps_eq (s : Scope) (c : Conjunction) (number : Nat)
    (maps : List ((o : Operator) × FieldMap o.Operand)) (position : Nat) (parts : List Chain)
    (h : ∀ part ∈ parts, part.StartsWith c) (flag : Bool) :
    draftMaps c number s position maps ((⟨parts, flag⟩ : Fragment).draft s.naming) =
      ((⟨parts ++ OperatorMaps.partsFrom c number position maps, flag⟩ : Fragment).draft s.naming,
        s.after 0 (Chain.bindings (OperatorMaps.partsFrom c number position maps).flatten)) := by
  induction maps generalizing s position parts with
  | nil =>
    rw [draftMaps, OperatorMaps.partsFrom, List.append_nil]
    rfl
  | cons m rest ih =>
    obtain ⟨o, m⟩ := m
    rw [draftMaps, OperatorMaps.partsFrom, map]
    by_cases hempty : m.isEmpty = true
    · simp only [hempty, if_true]
      exact ih s position parts h
    · simp only [hempty, Bool.false_eq_true, if_false]
      generalize Term.conditions c (m.conditions o number position) = t
      have hpush : ((⟨parts, flag⟩ : Fragment).draft s.naming).push c (t.text s.naming) 1 =
          (⟨parts ++ [[(c, t)]], flag⟩ : Fragment).draft s.naming := by
        rw [← Chain.text_singleton c]
        exact Fragment.push_draft h ⟨t, [], rfl⟩
      have hstarts : ∀ part ∈ parts ++ [[(c, t)]], part.StartsWith c := by
        simp only [List.mem_append, List.mem_singleton]
        rintro part (hpart | rfl)
        · exact h part hpart
        · exact ⟨t, [], rfl⟩
      have hrest := ih (s.after 0 (Chain.bindings [(c, t)])) (position + m.size) _ hstarts
      rw [after_after, after_naming, ← hpush] at hrest
      refine hrest.trans ?_
      rw [List.append_assoc, List.singleton_append, ← Chain.bindings_append]
      rfl

/-- The operator maps of a node, from the empty draft in the scope that the node has entered. -/
theorem draftMaps_present (s : Scope) (c : Conjunction) (maps : OperatorMaps) :
    draftMaps c (s.visited + 1) { s with visited := s.visited + 1 } 0
      (maps.present Operator.compiled) .empty =
      (Fragment.draft s.naming ⟨maps.parts c (s.visited + 1), false⟩,
        s.after 1 (Chain.bindings (maps.parts c (s.visited + 1)).flatten)) := by
  have hmaps := draftMaps_eq (s.after 1 []) c (s.visited + 1) (maps.present Operator.compiled) 0 []
    (by simp) false
  rw [after_after, List.nil_append, List.nil_append, ← Fragment.empty, ← Draft.empty_eq] at hmaps
  exact hmaps

/-- **A child** is drafted as it is compiled: the draft says what the chain says, and the scope has counted
its nodes and bound its parameters. -/
def Drafts (s : Scope) (chain : Chain) (nodes : Nat) (result : Draft × Scope) : Prop :=
  ∃ inner : Draft, inner.Says s.naming chain ∧ result = (inner, s.after nodes chain.bindings)

/-- A node is drafted as it is compiled, in any scope and under any conjunction. -/
def DraftsNode (e : Expr) : Prop := ∀ (s : Scope) (c : Conjunction),
  s.draftNode c e = ((e.compile c s.visited).draft s.naming,
    s.after e.nodes (e.compile c s.visited).chain.bindings)

/-- The draft of a node says what the node says. -/
theorem DraftsNode.drafts {e : Expr} (h : DraftsNode e) (s : Scope) (c : Conjunction) :
    s.Drafts (e.compile c s.visited).chain e.nodes (s.draftNode c e) := by
  refine ⟨_, ?_, h s c⟩
  obtain ⟨maps, not, nor, and, or⟩ := e
  exact Fragment.says_draft (Expr.consistsOf_compile maps not nor and or c s.visited).startsWith

/-- **Nodes are added to a draft one after the other.**

**Proof sketch.** Induction on the list, for any parts that are there already. What is added for a node is
its chain, which starts with the link of the list, so the parts together are the chain of the list. Where
a node says nothing there is no part for it. -/
theorem draftItems_eq (es : List Expr) (h : ∀ e ∈ es, DraftsNode e) (s : Scope) (c : Conjunction)
    (parts : List Chain) (hparts : ∀ part ∈ parts, part.StartsWith c) :
    ∃ items : List Chain, (∀ part ∈ items, part.StartsWith c) ∧
      items.flatten = Expr.compileAll es c s.visited ∧
      s.draftItems c es ((⟨parts, false⟩ : Fragment).draft s.naming) =
        ((⟨parts ++ items, false⟩ : Fragment).draft s.naming,
          s.after (Expr.nodesAll es) (Chain.bindings (Expr.compileAll es c s.visited))) := by
  induction es generalizing s parts with
  | nil =>
    refine ⟨[], by simp, by simp [Expr.compileAll], ?_⟩
    rw [draftItems, List.append_nil, Expr.compileAll, Expr.nodesAll]
    rfl
  | cons e es ih =>
    let chain := (e.compile c s.visited).chain
    have hchain : ∀ part ∈ chain.spliced c, part.StartsWith c := by
      intro part hpart
      obtain ⟨hne, rfl⟩ := Chain.of_mem_spliced hpart
      obtain ⟨link, rest, hchain⟩ := List.exists_cons_of_ne_nil hne
      exact ⟨link.2, rest, by rw [hchain]; rfl⟩
    obtain ⟨items, hitems, hflatten, hdraft⟩ :=
      ih (fun e' he' => h e' (by simp [he'])) (s.after e.nodes chain.bindings)
        (parts ++ chain.spliced c) (List.forall_mem_append.mpr ⟨hparts, hchain⟩)
    rw [after_visited] at hflatten hdraft
    rw [after_after, after_naming, List.append_assoc] at hdraft
    refine ⟨chain.spliced c ++ items, ?_, ?_, ?_⟩
    · exact List.forall_mem_append.mpr ⟨hchain, hitems⟩
    · rw [List.flatten_append, Chain.flatten_spliced, e.linkedBy_chain_compile, hflatten,
        Expr.compileAll_cons]
    · obtain ⟨item, hitem, hnode⟩ := (h e (by simp)).drafts s c
      rw [draftItems, hnode]
      dsimp only
      rw [Fragment.splice_draft hparts hitem, hdraft, Expr.compileAll_cons, Chain.bindings_append,
        Expr.nodesAll]

/-- The draft of a list says what the chain of the list says. -/
theorem drafts_draftList {es : Option (List Expr)} (h : ∀ e ∈ es.getD [], DraftsNode e) (s : Scope)
    (c : Conjunction) :
    s.Drafts (Expr.compileAll (es.getD []) c s.visited) (Expr.nodesAll (es.getD []))
      (s.draftList c es) := by
  cases es with
  | none =>
    rw [draftList, Option.getD_none, Expr.compileAll, Expr.nodesAll]
    exact ⟨.empty, Draft.says_empty, rfl⟩
  | some es =>
    obtain ⟨items, hitems, hflatten, hdraft⟩ := draftItems_eq es h s c [] (by simp)
    rw [draftList, Draft.empty_eq s.naming, Fragment.empty, hdraft, Option.getD_some,
      ← hflatten]
    exact ⟨_, Fragment.says_draft hitems, rfl⟩

/-- The draft of a child says what its chain says. -/
theorem drafts_draft {child : Option Expr} (h : ∀ e ∈ child.toList, DraftsNode e) (s : Scope)
    (c : Conjunction) :
    s.Drafts (Expr.compileAll child.toList c s.visited) (Expr.nodesAll child.toList)
      (s.draft c child) := by
  cases child with
  | none =>
    rw [draft, Option.toList_none, Expr.compileAll, Expr.nodesAll]
    exact ⟨.empty, Draft.says_empty, rfl⟩
  | some e =>
    have he := (h e (by simp)).drafts s c
    rw [draft, Option.toList_some, Expr.compileAll_cons, Expr.compileAll, Expr.nodesAll, Expr.nodesAll,
      List.append_nil, Nat.add_zero]
    exact he

end Scope

/-! ## Nodes -/

/-- **The alternatives of a node**: what its draft gets from `nor` and `or`, and the mark of a lone one.

**Proof sketch.** Each of the two steps adds the part of its child and marks the draft if nothing stands
before. The second mark needs an absent `nor`, and then nothing stands before `or` exactly if nothing stands
before `nor`. -/
theorem Fragment.alternatives_draft {naming : Naming} {c : Conjunction} {parts : List Chain}
    {nors ors : Draft} {norChain orChain : Chain} {noNor noOr : Bool}
    (hnors : nors.Says naming norChain) (hors : ors.Says naming orChain)
    (hnor : noNor = true → norChain = []) (hparts : ∀ part ∈ parts, part.StartsWith c)
    (hnegated : ∀ part ∈ norChain.negated c, part.StartsWith c) :
    let d := ((Fragment.draft naming ⟨parts, false⟩).mark nors (parts.isEmpty && noOr)).deny c nors
    (d.mark ors (d.isEmpty && noNor)).group c ors = Fragment.draft naming
      { parts := parts ++ norChain.negated c ++ orChain.grouped c
        isAlternative := parts.isEmpty &&
          (!norChain.isEmpty && noOr || !orChain.isEmpty && noNor) } := by
  intro d
  have hd : d = Fragment.draft naming
      ⟨parts ++ norChain.negated c, parts.isEmpty && noOr && !norChain.isEmpty⟩ := by
    rw [← Bool.false_or (_ && !norChain.isEmpty), ← deny_draft hparts hnors, ← mark_draft hnors]
  have hflag : (parts.isEmpty && noOr && !norChain.isEmpty ||
      (parts ++ norChain.negated c).isEmpty && noNor && !orChain.isEmpty) =
        (parts.isEmpty && (!norChain.isEmpty && noOr || !orChain.isEmpty && noNor)) := by
    cases noNor with
    | false => simp [Bool.and_assoc, Bool.and_comm noOr]
    | true => simp [hnor rfl, Chain.negated]
  rw [hd, isEmpty_draft, mark_draft hors,
    group_draft (List.forall_mem_append.mpr ⟨hparts, hnegated⟩) hors, hflag]

namespace Scope

/-- The draft of a node, from what its operator maps and its children give. -/
theorem draftNode_node {s s₁ s₂ s₃ s₄ s₅ : Scope} {c : Conjunction} {maps : OperatorMaps}
    {not nor : Option Expr} {and or : Option (List Expr)} {d ands nots nors ors : Draft}
    (hmaps : draftMaps c (s.visited + 1) { s with visited := s.visited + 1 } 0
      (maps.present Operator.compiled) .empty = (d, s₁))
    (hands : s₁.draftList .and and = (ands, s₂)) (hnots : s₂.draft .and not = (nots, s₃))
    (hnors : s₃.draft .or nor = (nors, s₄)) (hors : s₄.draftList .or or = (ors, s₅)) :
    s.draftNode c (.node maps not nor and or) =
      let before := (d.splice c ands).deny c nots
      let behind := (before.mark nors (before.isEmpty && or.isNone)).deny c nors
      ((behind.mark ors (behind.isEmpty && nor.isNone)).group c ors, s₅) := by
  rw [draftNode]
  simp only [enter, hmaps, hands, hnots, hnors, hors]

/-- **A node is drafted as it is compiled**, in any scope and under any conjunction.

**Proof sketch.** Induction on the tree. The scope behind the operator maps has counted the node itself, and
behind each child it has counted the nodes of that child too. So each child is met after as many nodes as
where it is compiled, and its draft says what its chain says. The steps on the draft then add the parts of
the fragment, and the scope has the parameters of these parts one after the other. -/
theorem draftsNode (e : Expr) : DraftsNode e := by
  induction e using Expr.inductionOn with
  | node maps not nor and or hand hnot hnor hor =>
    intro s c
    have hstarts := (Expr.consistsOf_compile maps not nor and or c s.visited).startsWith
    rw [Expr.compile_node, Expr.strictParts] at hstarts
    simp only [List.forall_mem_append, Expr.beforeNor, Expr.beforeNot] at hstarts
    obtain ⟨⟨⟨⟨hmaps, handParts⟩, hnotParts⟩, hnorParts⟩, -⟩ := hstarts
    have hbeforeNot := List.forall_mem_append.mpr ⟨hmaps, handParts⟩
    have hstrict := List.forall_mem_append.mpr ⟨hbeforeNot, hnotParts⟩
    obtain ⟨ands, hands, hdraftAnds⟩ := drafts_draftList hand (s.after 1 _) .and
    obtain ⟨nots, hnots, hdraftNots⟩ := drafts_draft hnot (Scope.after _ _ _) .and
    obtain ⟨nors, hnors, hdraftNors⟩ := drafts_draft hnor (Scope.after _ _ _) .or
    obtain ⟨ors, hors, hdraftOrs⟩ := drafts_draftList hor (Scope.after _ _ _) .or
    have hnone (before : Nat) (h : nor.isNone = true) :
        Expr.compileAll nor.toList .or before = [] := by
      rw [Option.isNone_iff_eq_none.mp h, Option.toList_none, Expr.compileAll]
    rw [draftNode_node (draftMaps_present s c maps) hdraftAnds hdraftNots hdraftNors hdraftOrs]
    simp only [after_naming, after_visited, after_after, ← Nat.add_assoc] at hands hnots hnors hors ⊢
    rw [Fragment.splice_draft hmaps hands, Fragment.deny_draft hbeforeNot hnots, Fragment.isEmpty_draft,
      Fragment.alternatives_draft hnors hors (hnone _) hstrict hnorParts, Expr.nodes_node,
      Expr.bindings_compile_node, Expr.compile_node]
    rfl

/-- **A filter is drafted as it is compiled**: the draft has the text, the mark and the numbers of parts and
terms of the fragment, and the scopes behind the two have the same nodes and parameters. -/
theorem draft_eq_filter (s : Scope) (c : Conjunction) (filter : Option Expr) :
    s.draft c filter = ((s.filter c filter).1.draft s.naming, (s.filter c filter).2) := by
  cases filter with
  | none =>
    rw [draft, Scope.filter, ← Draft.empty_eq]
  | some e =>
    rw [draft, draftsNode e s c]
    rfl

end Scope

end SqlFilter
