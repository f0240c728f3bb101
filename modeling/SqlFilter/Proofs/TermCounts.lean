import Mathlib.Algebra.BigOperators.Group.List.Basic
import SqlFilter.Proofs.Lexemes
import SqlFilter.Proofs.Readings
import SqlFilter.Proofs.TopLevel
import SqlFilter.Proofs.Units

set_option relaxedAutoImplicit false
set_option autoImplicit false

/-!
# How many terms a text has

The terms of a fragment are counted while it is compiled, and the count decides whether a negation
needs parentheses. It is the number of pieces that the text is cut into at its top level, whatever
the fragment is: each term is written as a group in parentheses, behind any number of negations.

## Design

The parts of a fragment are joined by the conjunction of the node. Only the part of an `and` list can
have more than one term, and its own separators are `AND`. So the separators of a fragment are told
part by part.

## Main definitions

* `Chain.pieces` — the text of a chain, cut at its top level.
* `Fragment.CountsTerms` — what the number of terms says about a text.

## Main results

* `Chain.pieces_eq` — a chain of units is cut into its terms.
* `Expr.parts_of_mem_compile` — the parts of a compiled filter.
* `Scope.terms_filter` — the terms of a compiled filter are counted exactly.
-/

namespace SqlFilter

open Text

/-! ## Texts of units -/

section

variable {naming : Naming}

/-- The text of a balanced template is balanced, if those of its segments other than parentheses are
flat. -/
theorem Template.Balanced.isBalanced_chars {t : Template} (h : t.Balanced)
    (hflat : ∀ s ∈ t, s ≠ .opening → s ≠ .closing → IsFlat (s.written naming placeholder).toList) :
    IsBalanced (t.chars naming) := by
  induction h with
  | nil => exact .nil
  | @segment s hopening hclosing =>
    have hs := hflat s (by simp) hopening hclosing
    simpa [chars] using hs.isBalanced
  | @parenthesized t h ih =>
    have ht := ih fun s hs => hflat s (by simp [hs])
    simpa [chars, Segment.written] using ht.parenthesized
  | @append a b ha hb iha ihb =>
    rw [chars, written_append]
    exact (iha fun s hs => hflat s (by simp [hs])).append (ihb fun s hs => hflat s (by simp [hs]))

/-- The text of a unit is a group in parentheses, behind any number of negations. -/
theorem Template.IsUnit.isNegatedGroup_chars {t : Template} (h : t.IsUnit)
    (hflat : ∀ s ∈ t, s ≠ .opening → s ≠ .closing → IsFlat (s.written naming placeholder).toList) :
    IsNegatedGroup (t.chars naming) := by
  induction h with
  | @parenthesized t h =>
    have ht := h.isBalanced_chars fun s hs => hflat s (by simp [hs])
    simpa [chars, Segment.written] using IsNegatedGroup.group ht
  | @not t h ih =>
    have ht := ih fun s hs => hflat s (by simp [hs])
    simpa [chars, Segment.written] using IsNegatedGroup.not ht

/-- Segments other than parentheses are flat, if their columns and parameters are.

**Proof sketch.** By cases on the segment. Links, operators and the words of negations and tests are
fixed texts without parentheses. A column is flat by hypothesis, and so is a placeholder, whose
colon is no parenthesis. -/
theorem Segment.isFlat_written {s : Segment}
    (hcolumn : ∀ f ∈ s.field?, IsFlat (naming.column f).toList)
    (hparameter : ∀ p ∈ s.parameter?, IsFlat p.toList) (hopening : s ≠ .opening)
    (hclosing : s ≠ .closing) : IsFlat (s.written naming SqlFilter.placeholder).toList := by
  cases s with
  | opening => exact absurd rfl hopening
  | closing => exact absurd rfl hclosing
  | link c =>
    have hlink : IsFlat c.separator.toList := by cases c <;> decide
    exact hlink
  | not => exact (by decide : IsFlat "NOT ".toList)
  | column field => exact hcolumn field rfl
  | operator o =>
    have hoperator : IsFlat (" " ++ o.token ++ " ").toList := by cases o <;> decide
    exact hoperator
  | null expected =>
    cases expected with
    | true => exact (by decide : IsFlat " IS NULL".toList)
    | false => exact (by decide : IsFlat " IS NOT NULL".toList)
  | placeholder name =>
    intro c hc
    rw [written, SqlFilter.placeholder, String.toList_append, List.mem_append] at hc
    rcases hc with hc | hc
    · obtain rfl : c = ':' := by simpa using hc
      decide
    · exact hparameter name rfl c hc

/-- A column is flat, if its alias and its field are. -/
theorem isFlat_column {field : String} (htable : IsFlat naming.table.toList)
    (hfield : IsFlat field.toList) : IsFlat (naming.column field).toList :=
  Naming.forall_mem_column (Quote.forall_mem_mark (by decide) (by decide) _) (by decide) htable hfield

/-- The parameter of a condition is flat, if its field is. -/
theorem Condition.isFlat_parameter {d : Condition} (hfield : IsFlat d.field.toList) :
    IsFlat d.parameter.toList := by
  refine forall_mem_parameterName (fun c hc => ?_) (by decide) hfield d.node d.position
  constructor <;> (rintro rfl; revert hc; decide)

/-- Segments of a chain other than parentheses are flat, if the alias and the fields are. -/
theorem Chain.isFlat_written {chain : Chain} (htable : IsFlat naming.table.toList)
    (hfields : ∀ d ∈ chain.conditions, IsFlat d.field.toList) :
    ∀ s ∈ chain.template, s ≠ .opening → s ≠ .closing →
      IsFlat (s.written naming placeholder).toList := by
  intro s hs
  refine Segment.isFlat_written (fun f hf => ?_) fun p hp => ?_
  · have hmem : f ∈ chain.template.fields := List.mem_filterMap.mpr ⟨s, hs, hf⟩
    rw [Chain.fields_template] at hmem
    obtain ⟨d, hd, rfl⟩ := List.mem_map.mp hmem
    exact isFlat_column htable (hfields d hd)
  · have hmem : p ∈ chain.template.parameters := List.mem_filterMap.mpr ⟨s, hs, hp⟩
    obtain ⟨d, hd, rfl⟩ := Chain.exists_of_mem_parameters hmem
    exact Condition.isFlat_parameter (hfields d hd)

end

/-! ## The pieces of a chain -/

namespace Chain

variable (naming : Naming)

/-- The text of a chain, cut at its top level. -/
def pieces (chain : Chain) : Pieces := .ofChars (chain.text naming).toList

/-- The terms of a chain, with the links between them. -/
def linkedTerms : Chain → Pieces
  | [] => ⟨[], []⟩
  | (_, t) :: rest =>
    ⟨(t.text naming).toList, rest.map fun link => (link.1, (link.2.text naming).toList)⟩

/-- The pieces of linked terms are the texts of the terms. -/
theorem all_linkedTerms {chain : Chain} (hne : chain ≠ []) :
    (chain.linkedTerms naming).all = chain.map fun link => (link.2.text naming).toList := by
  obtain ⟨link, rest, rfl⟩ := List.exists_cons_of_ne_nil hne
  simp [linkedTerms, Pieces.all]

/-- The separators of linked terms are the links behind the first one. -/
theorem separators_linkedTerms (chain : Chain) :
    (chain.linkedTerms naming).separators = chain.tail.map Prod.fst := by
  cases chain with
  | nil => rfl
  | cons link rest => simp [linkedTerms, Pieces.separators]

/-- The text of a chain is that of its terms with the links between them. -/
theorem chars_linkedTerms (chain : Chain) :
    (chain.linkedTerms naming).chars = (chain.text naming).toList := by
  have hlinked (rest : Chain) : (linkedText naming rest).toList =
      rest.flatMap fun link => link.1.separator.toList ++ (link.2.text naming).toList := by
    induction rest with
    | nil => rw [linkedText]; rfl
    | cons link rest ih => rw [linkedText]; simp [ih]
  cases chain with
  | nil => rw [text, chainText]; rfl
  | cons link rest =>
    rw [text, chainText, String.toList_append, hlinked]
    simp [linkedTerms, Pieces.chars, List.flatMap_map]

variable {naming}

/-- **The pieces of a chain are its terms**, if each of them is a negated group. -/
theorem pieces_eq {chain : Chain} (h : ∀ link ∈ chain, IsNegatedGroup (link.2.text naming).toList) :
    chain.pieces naming = chain.linkedTerms naming := by
  by_cases hne : chain = []
  · subst hne
    rw [pieces, text, chainText]
    rfl
  · rw [pieces, ← chars_linkedTerms, Pieces.ofChars_chars]
    rw [all_linkedTerms naming hne]
    exact List.forall_mem_map.mpr h

/-- Terms stand in the template of their chain. -/
theorem mem_template_of_mem {chain : Chain} {link : Conjunction × Term} (hlink : link ∈ chain)
    {s : Segment} (hs : s ∈ link.2.template) : s ∈ chain.template := by
  induction chain with
  | nil => simp at hlink
  | cons first rest ih =>
    rw [template_cons, List.mem_append]
    rcases List.mem_cons.mp hlink with rfl | hlink
    · exact .inl hs
    · obtain ⟨second, rest, rfl⟩ := List.exists_cons_of_ne_nil (List.ne_nil_of_mem hlink)
      rw [linkedTemplate_cons]
      exact .inr (List.mem_cons_of_mem _ (ih hlink))

section

variable {chain : Chain} (hunit : ∀ link ∈ chain, link.2.template.IsUnit)
  (htable : IsFlat naming.table.toList) (hfields : ∀ d ∈ chain.conditions, IsFlat d.field.toList)

include hunit htable hfields

/-- The terms of a chain of units are written as negated groups. -/
theorem isNegatedGroup_of_mem : ∀ link ∈ chain, IsNegatedGroup (link.2.text naming).toList := by
  intro link hlink
  rw [← Term.chars_template]
  exact (hunit link hlink).isNegatedGroup_chars fun s hs =>
    isFlat_written htable hfields s (mem_template_of_mem hlink hs)

/-- The text of a chain of units is balanced. -/
theorem isBalanced_text : IsBalanced (chain.text naming).toList := by
  rw [← chars_template]
  exact (chain.balanced_template hunit).1.isBalanced_chars (isFlat_written htable hfields)

end

/-! ### Chains in a row -/

/-- The first link of a chain is no part of its text. -/
theorem text_linkedBy (c : Conjunction) (chain : Chain) :
    (chain.linkedBy c).text naming = chain.text naming := by
  rw [← String.toList_inj, ← chars_template, ← chars_template, template_linkedBy]

/-- Two chains in a row, of which the first is not empty: the second one follows its first link. -/
theorem text_append_cons {a : Chain} (ha : a ≠ []) (link : Conjunction × Term) (b : Chain) :
    Chain.text naming (a ++ link :: b) =
      a.text naming ++ link.1.separator ++ Chain.text naming (link :: b) := by
  have htemplate : Chain.template (a ++ link :: b) =
      a.template ++ .link link.1 :: Chain.template (link :: b) := by
    rw [template_append ha, linkedTemplate_cons]
  rw [← String.toList_inj, String.toList_append, String.toList_append, ← chars_template,
    ← chars_template, ← chars_template, htemplate]
  simp [Template.chars, Segment.written]

/-- A part that is linked by a conjunction to what stands on its left. -/
def StartsWith (c : Conjunction) (part : Chain) : Prop := ∃ t rest, part = (c, t) :: rest

section Parts

variable {c : Conjunction} {parts : List Chain} (h : ∀ part ∈ parts, StartsWith c part)

include h

/-- **The text of parts in a row** is that of each part, joined by the conjunction. -/
theorem text_flatten :
    Chain.text naming parts.flatten = c.separator.intercalate (parts.map (Chain.text naming)) := by
  induction parts with
  | nil =>
    rw [List.flatten_nil, text, chainText]
    rfl
  | cons part parts ih =>
    cases parts with
    | nil => simp
    | cons second parts =>
      obtain ⟨t, rest, rfl⟩ := h part (by simp)
      obtain ⟨u, behind, rfl⟩ := h second (by simp)
      have hrest := ih fun p hp => h p (List.mem_cons_of_mem _ hp)
      rw [List.map_cons, List.map_cons, String.intercalate_cons_cons, ← List.map_cons, ← hrest]
      simp only [List.flatten_cons, List.cons_append]
      exact text_append_cons (List.cons_ne_nil _ _) _ _

/-- The separators of parts in a row are those of each part, with the conjunction between them. -/
theorem separators_flatten : (Chain.linkedTerms naming parts.flatten).separators =
    [c].intercalate (parts.map fun part => (part.linkedTerms naming).separators) := by
  simp only [separators_linkedTerms]
  induction parts with
  | nil => rfl
  | cons part parts ih =>
    cases parts with
    | nil => simp
    | cons second parts =>
      obtain ⟨t, rest, rfl⟩ := h part (by simp)
      obtain ⟨u, behind, rfl⟩ := h second (by simp)
      have hrest := ih fun p hp => h p (List.mem_cons_of_mem _ hp)
      rw [List.map_cons] at hrest
      rw [List.map_cons, List.map_cons, List.intercalate_cons_cons, ← hrest]
      simp

/-- No part is empty, so there are at least as many terms as parts. -/
theorem length_le_length_flatten : parts.length ≤ parts.flatten.length := by
  rw [List.length_flatten, ← List.length_map List.length]
  refine List.length_le_sum_of_one_le _ (List.forall_mem_map.mpr fun part hpart => ?_)
  obtain ⟨t, rest, rfl⟩ := h part hpart
  exact Nat.le_add_left 1 _

end Parts

end Chain

/-! ## Counting node by node -/

/-- The number of maps that have a field. -/
def OperatorMaps.count (maps : OperatorMaps) : Nat :=
  (maps.present Operator.compiled).countP fun m => !m.2.isEmpty

namespace Expr

mutual

/-- The number of terms of a filter, counted at each node: one for each map with a field, all those
of the `and` items, and one for each other combinator below which there is any. -/
def countTerms : Expr → Nat
  | .node maps not nor and or =>
    maps.count + (match and with | none => 0 | some es => countTermsAll es)
      + (match not with | none => 0 | some e => min 1 e.countTerms)
      + (match nor with | none => 0 | some e => min 1 e.countTerms)
      + (match or with | none => 0 | some es => min 1 (countTermsAll es))

/-- The number of terms of a list of filters. -/
def countTermsAll : List Expr → Nat
  | [] => 0
  | e :: es => e.countTerms + countTermsAll es

end

/-- The number of terms of a node, with its children as lists. -/
theorem countTerms_node (maps : OperatorMaps) (not nor : Option Expr) (and or : Option (List Expr)) :
    (Expr.node maps not nor and or).countTerms =
      maps.count + countTermsAll (and.getD []) + min 1 (countTermsAll not.toList)
        + min 1 (countTermsAll nor.toList) + min 1 (countTermsAll (or.getD [])) := by
  cases not <;> cases nor <;> cases and <;> cases or <;>
    simp only [countTerms, countTermsAll, Option.toList_none, Option.toList_some, Option.getD_none,
      Option.getD_some, Nat.add_zero, Nat.min_zero]

end Expr

/-- Maps with a field have one term each. -/
theorem OperatorMaps.length_partsFrom (c : Conjunction) (node : Nat)
    (maps : List ((o : Operator) × FieldMap o.Operand)) (position : Nat) :
    (partsFrom c node position maps).flatten.length = maps.countP fun m => !m.2.isEmpty := by
  induction maps generalizing position with
  | nil => rfl
  | cons m rest ih =>
    obtain ⟨o, m⟩ := m
    rw [partsFrom, List.countP_cons]
    split
    · rename_i hempty
      simp [ih, hempty]
    · rename_i hempty
      simp [ih, hempty]

/-- A negated chain is one term, unless it is empty. -/
theorem Chain.length_flatten_negated (c : Conjunction) (chain : Chain) :
    (chain.negated c).flatten.length = min 1 chain.length := by
  cases chain <;> simp [negated]

/-- A chain in parentheses is one term, unless it is empty. -/
theorem Chain.length_flatten_grouped (c : Conjunction) (chain : Chain) :
    (chain.grouped c).flatten.length = min 1 chain.length := by
  cases chain <;> simp [grouped]

namespace Expr

/-- The number of terms of a list of filters, if each of them has its number. -/
private theorem length_compileAll_of_forall (es : List Expr) (c : Conjunction)
    (h : ∀ e ∈ es, ∀ c before, (e.compile c before).terms = e.countTerms) (before : Nat) :
    (compileAll es c before).length = countTermsAll es := by
  induction es generalizing before with
  | nil => simp [compileAll, countTermsAll]
  | cons e es ih =>
    have he : (e.compile c before).chain.length = e.countTerms := h e (by simp) c before
    rw [compileAll_cons, List.length_append, he, countTermsAll, ih fun e' he' => h e' (by simp [he'])]

/-- **The terms of a compiled filter** can be counted at the nodes, whatever conjunction they stand
under. -/
theorem terms_compile (e : Expr) : ∀ (c : Conjunction) (before : Nat),
    (e.compile c before).terms = e.countTerms := by
  induction e using inductionOn with
  | node maps not nor and or hand hnot hnor hor =>
    intro c before
    rw [compile_node, Fragment.terms, Fragment.chain, strictParts, countTerms_node]
    simp only [List.flatten_append, List.length_append, OperatorMaps.parts,
      OperatorMaps.length_partsFrom, OperatorMaps.count, Chain.flatten_spliced, Chain.length_linkedBy,
      Chain.length_flatten_negated, Chain.length_flatten_grouped, length_compileAll_of_forall _ _ hand,
      length_compileAll_of_forall _ _ hnot, length_compileAll_of_forall _ _ hnor,
      length_compileAll_of_forall _ _ hor]

end Expr

/-! ## The parts of a node -/

/-- The parts of a fragment are single terms, but for one that is a list of items. -/
def Fragment.ConsistsOf (c : Conjunction) (items : Chain) (f : Fragment) : Prop :=
  ∀ part ∈ f.parts, (∃ t, part = [(c, t)]) ∨ items ≠ [] ∧ part = items.linkedBy c

namespace Fragment.ConsistsOf

variable {c : Conjunction} {items : Chain} {f : Fragment} (h : f.ConsistsOf c items)

include h

/-- Every part starts with the link of the node. -/
theorem startsWith : ∀ part ∈ f.parts, part.StartsWith c := by
  intro part hpart
  rcases h part hpart with ⟨t, rfl⟩ | ⟨hne, rfl⟩
  · exact ⟨t, [], rfl⟩
  · obtain ⟨link, rest, rfl⟩ := List.exists_cons_of_ne_nil hne
    exact ⟨link.2, rest, rfl⟩

variable (hitems : ∀ link ∈ items, link.1 = .and)

include hitems

/-- Behind the first link of a part there is `AND` only. -/
theorem link_of_mem_tail {part : Chain} (hpart : part ∈ f.parts) :
    ∀ link ∈ part.tail, link.1 = .and := by
  rcases h part hpart with ⟨t, rfl⟩ | ⟨hne, rfl⟩
  · simp
  · obtain ⟨link, rest, rfl⟩ := List.exists_cons_of_ne_nil hne
    exact fun link hlink => hitems link (List.mem_cons_of_mem _ hlink)

/-- The links of a fragment are that of the node and `AND`. -/
theorem link_of_mem_chain : ∀ link ∈ f.chain, link.1 = c ∨ link.1 = .and := by
  intro link hlink
  obtain ⟨part, hpart, hlink⟩ := List.mem_flatten.mp hlink
  have htail := h.link_of_mem_tail hitems hpart
  obtain ⟨t, rest, rfl⟩ := h.startsWith part hpart
  rcases List.mem_cons.mp hlink with rfl | hlink
  · exact .inl rfl
  · exact .inr (htail link hlink)

end Fragment.ConsistsOf

namespace OperatorMaps

/-- The parts of maps are single terms. -/
theorem eq_singleton_of_mem_partsFrom {c : Conjunction} {node : Nat}
    {maps : List ((o : Operator) × FieldMap o.Operand)} {position : Nat} {part : Chain}
    (h : part ∈ partsFrom c node position maps) : ∃ t, part = [(c, t)] := by
  induction maps generalizing position with
  | nil => simp [partsFrom] at h
  | cons m rest ih =>
    obtain ⟨o, m⟩ := m
    rw [partsFrom] at h
    split at h
    · exact ih h
    · rcases List.mem_cons.mp h with rfl | h
      · exact ⟨_, rfl⟩
      · exact ih h

end OperatorMaps

namespace Chain

variable {c : Conjunction} {chain part : Chain}

/-- What is negated is a single term. -/
theorem eq_singleton_of_mem_negated (h : part ∈ chain.negated c) : part = [(c, .not chain)] := by
  cases chain with
  | nil => simp [negated] at h
  | cons link rest => simpa [negated] using h

/-- What is in parentheses is a single term. -/
theorem eq_singleton_of_mem_grouped (h : part ∈ chain.grouped c) : part = [(c, .group chain)] := by
  cases chain with
  | nil => simp [grouped] at h
  | cons link rest => simpa [grouped] using h

/-- What is spliced is the chain, and it is not empty. -/
theorem of_mem_spliced (h : part ∈ chain.spliced c) : chain ≠ [] ∧ part = chain.linkedBy c := by
  cases chain with
  | nil => simp [spliced] at h
  | cons link rest => exact ⟨List.cons_ne_nil _ _, by simpa [spliced] using h⟩

end Chain

namespace Expr

/-- The chain of the `and` items of a node. -/
def andItems (and : Option (List Expr)) (before : Nat) : Chain :=
  compileAll (and.getD []) .and (before + 1)

/-- **The parts of a compiled filter** are single terms, but for that of the `and` items. -/
theorem consistsOf_compile (maps : OperatorMaps) (not nor : Option Expr) (and or : Option (List Expr))
    (c : Conjunction) (before : Nat) :
    ((Expr.node maps not nor and or).compile c before).ConsistsOf c (andItems and before) := by
  intro part hpart
  rw [compile_node, strictParts] at hpart
  simp only [List.mem_append] at hpart
  rcases hpart with (((hmaps | hands) | hnots) | hnors) | hors
  · exact .inl (OperatorMaps.eq_singleton_of_mem_partsFrom hmaps)
  · exact .inr (Chain.of_mem_spliced hands)
  · exact .inl ⟨_, Chain.eq_singleton_of_mem_negated hnots⟩
  · exact .inl ⟨_, Chain.eq_singleton_of_mem_negated hnors⟩
  · exact .inl ⟨_, Chain.eq_singleton_of_mem_grouped hors⟩

/-- The links of a list of filters are `AND`, if those of each filter are. -/
private theorem link_compileAll_of_forall (es : List Expr)
    (h : ∀ e ∈ es, ∀ before, ∀ link ∈ (e.compile .and before).chain, link.1 = .and) (before : Nat) :
    ∀ link ∈ compileAll es .and before, link.1 = .and := by
  induction es generalizing before with
  | nil => simp [compileAll]
  | cons e es ih =>
    intro link hlink
    rw [compileAll_cons, List.mem_append] at hlink
    rcases hlink with hlink | hlink
    · exact h e (by simp) before link hlink
    · exact ih (fun e' he' => h e' (by simp [he'])) _ link hlink

/-- **Under `AND` every link is `AND`.**

**Proof sketch.** Induction on the tree. A part is linked by the conjunction of the node, and behind
that link stand only those of the `and` items. -/
theorem link_compile_and (e : Expr) :
    ∀ before, ∀ link ∈ (e.compile .and before).chain, link.1 = .and := by
  induction e using inductionOn with
  | node maps not nor and or hand hnot hnor hor =>
    intro before link hlink
    have hitems : ∀ link ∈ andItems and before, link.1 = .and :=
      link_compileAll_of_forall _ hand (before + 1)
    have hconsists := consistsOf_compile maps not nor and or .and before
    simpa using hconsists.link_of_mem_chain hitems link hlink

/-- The `and` items of a node are linked by `AND`. -/
theorem link_andItems (and : Option (List Expr)) (before : Nat) :
    ∀ link ∈ andItems and before, link.1 = .and :=
  link_compileAll_of_forall _ (fun e _ => e.link_compile_and) _

end Expr

/-! ## Terms and texts -/

/-- **The terms of a fragment are counted exactly.** The fragment is that of a node under the
conjunction `c`, and `items` is the chain of its `and` items. -/
structure Fragment.CountsTerms (naming : Naming) (c : Conjunction) (items : Chain) (f : Fragment) :
    Prop where
  /-- The parentheses of the text match. -/
  isBalanced : IsBalanced (f.text naming).toList
  /-- The text is cut into as many pieces as there are terms. -/
  length_pieces : (f.chain.pieces naming).all.length = f.terms
  /-- Each piece is a group in parentheses behind any number of negations. -/
  isNegatedGroup : ∀ piece ∈ (f.chain.pieces naming).all, IsNegatedGroup piece
  /-- There are at least as many terms as parts. -/
  parts_le_terms : f.parts.length ≤ f.terms
  /-- The parts are joined by the conjunction. -/
  text_eq : f.text naming = c.separator.intercalate (f.parts.map (Chain.text naming))
  /-- The separators are those between parts and those within parts. -/
  separators_eq : (f.chain.pieces naming).separators =
    [c].intercalate (f.parts.map fun part => (part.pieces naming).separators)
  /-- A part with separators is the list of `and` items, and its separators are `AND`. -/
  separators_part : ∀ part ∈ f.parts, (part.pieces naming).separators ≠ [] →
    part.text naming = items.text naming ∧ ∀ k ∈ (part.pieces naming).separators, k = .and
  /-- Under `AND`, every separator is `AND`. -/
  separators_and : c = .and → ∀ k ∈ (f.chain.pieces naming).separators, k = .and
  /-- What is negated is the whole text, in parentheses exactly if it has more than one piece. -/
  negated : ∃ operand, IsNegatedGroup operand ∧
    ((Term.not f.chain).text naming).toList = "NOT ".toList ++ operand ∧
    operand = if 1 < (f.chain.pieces naming).all.length then '(' :: ((f.text naming).toList ++ [')'])
      else (f.text naming).toList

/-- **A negation** is that of the whole chain, which stands in parentheses if it has more than one
term. -/
theorem Term.exists_text_not {naming : Naming} {chain : Chain} (hne : chain ≠ [])
    (hbalanced : IsBalanced (chain.text naming).toList)
    (hgroup : ∀ link ∈ chain, IsNegatedGroup (link.2.text naming).toList) :
    ∃ operand, IsNegatedGroup operand ∧
      ((Term.not chain).text naming).toList = "NOT ".toList ++ operand ∧
      operand = if 1 < chain.length then '(' :: ((chain.text naming).toList ++ [')'])
        else (chain.text naming).toList := by
  refine ⟨_, ?_, ?_, rfl⟩
  · split
    · exact .group hbalanced
    · rename_i hlength
      obtain ⟨link, rest, rfl⟩ := List.exists_cons_of_ne_nil hne
      obtain rfl : rest = [] := by simpa using hlength
      rw [Chain.text, chainText, linkedText, String.append_empty]
      exact hgroup link (by simp)
  · rw [Term.text, ← Chain.text]
    split <;> simp

/-- **The terms of a fragment are counted exactly**, if each of them is written as a negated group.

**Proof sketch.** The text is cut between the terms, and the links tell the separators: those of the
first terms of parts stand between parts, and all others are `AND`. -/
theorem Fragment.ConsistsOf.countsTerms {naming : Naming} {c : Conjunction} {items : Chain}
    {f : Fragment} (h : f.ConsistsOf c items) (hitems : ∀ link ∈ items, link.1 = .and)
    (hne : f.chain ≠ []) (hbalanced : IsBalanced (f.chain.text naming).toList)
    (hgroup : ∀ link ∈ f.chain, IsNegatedGroup (link.2.text naming).toList) :
    f.CountsTerms naming c items := by
  have hpieces : f.chain.pieces naming = f.chain.linkedTerms naming := Chain.pieces_eq hgroup
  have hall := Chain.all_linkedTerms naming hne
  have hlength : (f.chain.linkedTerms naming).all.length = f.chain.length := by
    rw [hall, List.length_map]
  have hpart : ∀ part ∈ f.parts, part.pieces naming = part.linkedTerms naming := fun part hpart =>
    Chain.pieces_eq fun link hlink => hgroup link (List.mem_flatten_of_mem hpart hlink)
  refine
    { isBalanced := hbalanced
      length_pieces := hpieces ▸ hlength
      isNegatedGroup := ?_
      parts_le_terms := Chain.length_le_length_flatten h.startsWith
      text_eq := Chain.text_flatten h.startsWith
      separators_eq := ?_
      separators_part := fun part hmem hseparators => ⟨?_, ?_⟩
      separators_and := ?_
      negated := ?_ }
  · rw [hpieces, hall]
    exact List.forall_mem_map.mpr hgroup
  · rw [hpieces, List.map_congr_left fun part hmem => congrArg Pieces.separators (hpart part hmem)]
    exact Chain.separators_flatten h.startsWith
  · rcases h part hmem with ⟨t, rfl⟩ | ⟨-, rfl⟩
    · rw [hpart _ hmem] at hseparators
      exact absurd rfl hseparators
    · exact Chain.text_linkedBy c items
  · rw [hpart part hmem, Chain.separators_linkedTerms]
    exact List.forall_mem_map.mpr (h.link_of_mem_tail hitems hmem)
  · rintro rfl
    rw [hpieces, Chain.separators_linkedTerms]
    refine List.forall_mem_map.mpr fun link hlink => ?_
    simpa using h.link_of_mem_chain hitems link (List.mem_of_mem_tail hlink)
  · rw [hpieces, hlength]
    exact Term.exists_text_not hne hbalanced hgroup

/-- **The number of terms is right for every filter.** Let a filter be compiled in any scope and
under any conjunction, where neither the alias nor any field has a parenthesis.

- Its number of terms is counted at the nodes.
- Unless it says nothing, it is the number of pieces that its text is cut into, and each of these is a
  negated group. So a negation is that of the whole text.
- The separators between its parts are the conjunction, and all others are the `AND` of its `and`
  items.

**Proof sketch.** The terms are units, and without parentheses in names each unit is written as a
negated group. -/
theorem Scope.terms_filter (s : Scope) (c : Conjunction) (maps : OperatorMaps) (not nor : Option Expr)
    (and or : Option (List Expr)) (htable : IsFlat s.naming.table.toList)
    (hfields : ∀ f ∈ (Expr.node maps not nor and or).fields, IsFlat f.toList) :
    let e := Expr.node maps not nor and or
    let fragment := (s.filter c (some e)).1
    fragment.terms = e.countTerms ∧
      (fragment.isEmpty = false → fragment.CountsTerms s.naming c (Expr.andItems and s.visited)) := by
  intro e fragment
  refine ⟨e.terms_compile c s.visited, fun hempty => ?_⟩
  have hconsists : fragment.ConsistsOf c (Expr.andItems and s.visited) :=
    Expr.consistsOf_compile maps not nor and or c s.visited
  have hne : fragment.chain ≠ [] := by
    intro hchain
    have hparts : fragment.parts = [] :=
      (e.parts_eq_nil_iff c s.visited).mpr ((e.chain_eq_nil_iff c s.visited).mp hchain)
    simp [Fragment.isEmpty, hparts] at hempty
  have hunit : ∀ link ∈ fragment.chain, link.2.template.IsUnit := e.isUnit_of_mem_compile c s.visited
  have hflat : ∀ d ∈ fragment.chain.conditions, IsFlat d.field.toList := by
    intro d hd
    have hd : d ∈ e.conditions s.visited := e.conditions_compile c s.visited ▸ hd
    exact hfields _ ((e.fields_conditions_perm s.visited).subset (List.mem_map_of_mem hd))
  exact hconsists.countsTerms (Expr.link_andItems and s.visited) hne
    (Chain.isBalanced_text hunit htable hflat) (Chain.isNegatedGroup_of_mem hunit htable hflat)

/-- Under `OR`, the items of `and` are terms of their own, and `AND` stands between them only. A
negation of two terms has parentheses. -/
theorem Scope.terms_filter_splicedItems :
    let leaf (field : String) : Expr :=
      .node (.single .eq (.ofList [(field, .str "x")])) none none none none
    let items := [leaf "b", leaf "c"]
    let s := Scope.start CompilerOptions.default.naming
    let f := (s.filter .or (some (.node (.single .eq (.ofList [("a", .str "x")]))
      (some (.node .none none none (some items) none)) none (some items) (some items)))).1
    f.terms = 5 ∧ f.parts.length = 4 ∧ f.CountsTerms s.naming .or (Expr.andItems (some items) 0) ∧
      (f.chain.pieces s.naming).separators = [.or, .and, .or, .or] ∧
      f.text s.naming = "(target.a = :a_1_0) OR (target.b = :b_2_0) AND (target.c = :c_3_0) OR " ++
        "NOT ((target.b = :b_5_0) AND (target.c = :c_6_0)) OR " ++
        "((target.b = :b_7_0) OR (target.c = :c_8_0))" := by
  intro leaf items s f
  obtain ⟨hterms, hcounts⟩ := Scope.terms_filter s .or (.single .eq (.ofList [("a", .str "x")]))
    (some (.node .none none none (some items) none)) none (some items) (some items) (by decide)
    (by decide)
  exact ⟨hterms.trans (by decide), by decide +kernel, hcounts (by decide +kernel), by decide +kernel,
    by decide +kernel⟩

end SqlFilter
