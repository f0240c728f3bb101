import Mathlib.Data.List.Basic
import SqlFilter.Proofs.Parameters
import SqlFilter.Proofs.Template

set_option relaxedAutoImplicit false
set_option autoImplicit false

/-!
# The text of a compiled query

Predicates, keys and whole queries have templates, and their texts are the texts of the templates. A
template shows what a text is made of: which columns stand in it and which placeholders, in which
order.

## Main definitions

* `Condition.template`, `Term.template`, `Chain.template` — templates of predicates.
* `Keys.template`, `Query.template` — templates of keys and of whole conditions.

## Main results

* `Chain.chars_template`, `Query.chars_template` — the texts are those of the templates.
* `Chain.closed_template`, `Query.separated_template` — delimiters stand between their segments.
* `Chain.fields_template`, `Chain.parameters_template` — columns and placeholders of a predicate are
  those of its conditions.
-/

namespace SqlFilter

/-! ## Templates of predicates -/

/-- The template of a condition. -/
def Condition.template (c : Condition) : Template :=
  .column c.field ::
    match c.test with
    | .compare o _ =>
      .operator o ::
        if o.isMembership then [.opening, .placeholder c.parameter, .closing]
        else [.placeholder c.parameter]
    | .null expected => [.null expected]

/-- The template of joined conditions. -/
def conditionsTemplate (joined : Conjunction) (list : List Condition) : Template :=
  Template.joined (.link joined) (list.map Condition.template)

mutual

/-- The template of a term. -/
def Term.template : Term → Template
  | .conditions joined list => .opening :: (conditionsTemplate joined list ++ [.closing])
  | .group chain => .opening :: (chainTemplate chain ++ [.closing])
  | .not chain =>
    if 1 < chain.length then .not :: .opening :: (chainTemplate chain ++ [.closing])
    else .not :: chainTemplate chain

/-- The template of a chain: those of its terms with the links between them. -/
def chainTemplate : List (Conjunction × Term) → Template
  | [] => []
  | (_, t) :: rest => t.template ++ linkedTemplate rest

/-- The template of terms that follow others: each one after its link. -/
def linkedTemplate : List (Conjunction × Term) → Template
  | [] => []
  | (c, t) :: rest => .link c :: (t.template ++ linkedTemplate rest)

end

namespace Chain

/-- The template of a chain. -/
def template (chain : Chain) : Template := chainTemplate chain

@[simp] theorem template_nil : Chain.template [] = [] := rfl

/-- The template of a chain starts with that of its first term. -/
theorem template_cons (link : Conjunction × Term) (chain : Chain) :
    Chain.template (link :: chain) = link.2.template ++ linkedTemplate chain := by
  rw [template, chainTemplate]

/-- The template of terms that follow others starts with the first link. -/
theorem linkedTemplate_cons (link : Conjunction × Term) (chain : Chain) :
    linkedTemplate (link :: chain) = .link link.1 :: Chain.template (link :: chain) := by
  rw [template_cons, linkedTemplate]

/-- Two chains in a row: the second one follows the first. -/
theorem linkedTemplate_append (a b : Chain) :
    linkedTemplate (a ++ b) = linkedTemplate a ++ linkedTemplate b := by
  induction a with
  | nil => rw [List.nil_append, linkedTemplate]; rfl
  | cons link a ih =>
    rw [List.cons_append, linkedTemplate_cons, linkedTemplate_cons, template_cons, template_cons, ih]
    simp

/-- Two chains in a row, of which the first is not empty: the second one follows the first. -/
theorem template_append {a : Chain} (ha : a ≠ []) (b : Chain) :
    Chain.template (a ++ b) = Chain.template a ++ linkedTemplate b := by
  obtain ⟨link, a, rfl⟩ := List.exists_cons_of_ne_nil ha
  rw [List.cons_append, template_cons, template_cons, linkedTemplate_append, List.append_assoc]

/-- The first link of a chain is no part of its text. -/
@[simp] theorem template_linkedBy (c : Conjunction) (chain : Chain) :
    (chain.linkedBy c).template = chain.template := by
  cases chain with
  | nil => rfl
  | cons link rest => rw [linkedBy, template_cons, template_cons]

end Chain

namespace Term

/-- The template of a group is that of its chain, in parentheses. -/
theorem template_group (chain : Chain) :
    (Term.group chain).template = .opening :: (chain.template ++ [.closing]) := by
  rw [Term.template]
  rfl

/-- The template of a negation of several terms has parentheses. -/
theorem template_not_of_lt {chain : Chain} (h : 1 < chain.length) :
    (Term.not chain).template = .not :: .opening :: (chain.template ++ [.closing]) := by
  rw [Term.template, if_pos h]
  rfl

/-- The template of a negation of a single term has no parentheses. -/
theorem template_not_of_le {chain : Chain} (h : chain.length ≤ 1) :
    (Term.not chain).template = .not :: chain.template := by
  rw [Term.template, if_neg (Nat.not_lt.mpr h)]
  rfl

end Term

/-- No term has an empty template. -/
theorem Term.template_ne_nil (t : Term) : t.template ≠ [] := by
  cases t with
  | not chain =>
    rw [Term.template]
    split <;> exact List.cons_ne_nil _ _
  | conditions | group => exact List.cons_ne_nil _ _

/-- Only the empty chain has the empty template. -/
theorem Chain.template_eq_nil_iff (chain : Chain) : chain.template = [] ↔ chain = [] := by
  cases chain with
  | nil => simp
  | cons link chain => simp [template_cons, link.2.template_ne_nil]

/-! ## Their texts -/

section

variable (naming : Naming)

/-- The text of a condition is that of its template. -/
theorem Condition.chars_template (c : Condition) :
    c.template.chars naming = (c.text naming).toList := by
  unfold Condition.template Condition.text Template.chars
  cases c.test with
  | compare o operand => cases h : o.isMembership <;> simp [h, Segment.written]
  | null expected => cases expected <;> simp [Segment.written]

/-- The text of joined conditions is that of their template. -/
theorem chars_conditionsTemplate (joined : Conjunction) (list : List Condition) :
    (conditionsTemplate joined list).chars naming =
      (joined.separator.intercalate (list.map (Condition.text naming))).toList := by
  rw [conditionsTemplate, Template.chars, Template.written_joined, String.toList_intercalate,
    List.map_map, List.map_map]
  exact congrArg _ (List.map_congr_left fun c _ => c.chars_template naming)

/-- The text of a chain is that of its template, if this holds of each term. -/
private theorem chars_chainTemplate_of_forall (chain : Chain)
    (h : ∀ link ∈ chain, link.2.template.chars naming = (link.2.text naming).toList) :
    (chainTemplate chain).chars naming = (chainText naming chain).toList ∧
      (linkedTemplate chain).chars naming = (linkedText naming chain).toList := by
  induction chain with
  | nil => simp [chainTemplate, linkedTemplate, chainText, linkedText, Template.chars]
  | cons link chain ih =>
    obtain ⟨c, t⟩ := link
    have ht : t.template.chars naming = (t.text naming).toList := h (c, t) List.mem_cons_self
    have hrest := (ih fun link hlink => h link (List.mem_cons_of_mem _ hlink)).2
    rw [Template.chars] at ht hrest
    rw [chainTemplate, linkedTemplate, chainText, linkedText]
    simp [Template.chars, Segment.written, ht, hrest]

/-- **The text of a term is that of its template.** -/
theorem Term.chars_template (t : Term) :
    t.template.chars naming = (t.text naming).toList := by
  induction t using Term.inductionOn with
  | conditions joined list =>
    have hlist := chars_conditionsTemplate naming joined list
    rw [Template.chars] at hlist
    rw [Term.template, Term.text]
    simp [Template.chars, Segment.written, hlist]
  | group chain ih =>
    have hchain := (chars_chainTemplate_of_forall naming chain ih).1
    rw [Template.chars] at hchain
    rw [Term.template, Term.text]
    simp [Template.chars, Segment.written, hchain]
  | not chain ih =>
    have hchain := (chars_chainTemplate_of_forall naming chain ih).1
    rw [Template.chars] at hchain
    rw [Term.template, Term.text]
    split <;> simp [Template.chars, Segment.written, hchain]

/-- **The text of a chain is that of its template.** -/
theorem Chain.chars_template (chain : Chain) :
    chain.template.chars naming = (chain.text naming).toList :=
  (chars_chainTemplate_of_forall naming chain fun link _ => link.2.chars_template naming).1

end

/-! ## Delimiters in templates -/

/-- The template of a condition is separated. -/
theorem Condition.separated_template (c : Condition) : Separated c.template := by
  unfold Condition.template
  cases c.test with
  | compare o operand =>
    cases h : o.isMembership <;>
      simp [h, Separated, Segment.Apart, Segment.endsApart, Segment.startsApart]
  | null expected => simp [Separated, Segment.Apart, Segment.startsApart]

/-- The template of joined conditions is separated. -/
theorem separated_conditionsTemplate (joined : Conjunction) (list : List Condition) :
    Separated (conditionsTemplate joined list) := by
  refine Separated.joined_link joined fun t ht => ?_
  obtain ⟨c, -, rfl⟩ := List.mem_map.mp ht
  exact c.separated_template

/-- The template of a chain is closed, if those of its terms are. -/
private theorem closed_chainTemplate_of_forall (chain : Chain)
    (h : ∀ link ∈ chain, Closed link.2.template) :
    Closed (chainTemplate chain) ∧ Closed (linkedTemplate chain) := by
  induction chain with
  | nil =>
    rw [chainTemplate, linkedTemplate]
    exact ⟨Closed.nil, Closed.nil⟩
  | cons link chain ih =>
    obtain ⟨c, t⟩ := link
    have ht : Closed t.template := h (c, t) List.mem_cons_self
    have hrest := (ih fun link hlink => h link (List.mem_cons_of_mem _ hlink)).2
    rw [chainTemplate, linkedTemplate]
    exact ⟨ht.append hrest, (ht.append hrest).cons rfl⟩

/-- The template of a term is closed. -/
theorem Term.closed_template (t : Term) : Closed t.template := by
  induction t using Term.inductionOn with
  | conditions joined list =>
    rw [Term.template]
    exact Closed.parenthesized (separated_conditionsTemplate joined list)
  | group chain ih =>
    rw [Term.template]
    exact Closed.parenthesized (closed_chainTemplate_of_forall chain ih).1.separated
  | not chain ih =>
    have hchain := (closed_chainTemplate_of_forall chain ih).1
    rw [Term.template]
    split
    · exact (Closed.parenthesized hchain.separated).cons rfl
    · exact hchain.cons rfl

/-- **The template of a chain is closed.** -/
theorem Chain.closed_template (chain : Chain) : Closed chain.template :=
  (closed_chainTemplate_of_forall chain fun link _ => link.2.closed_template).1

/-! ## What stands in templates -/

section

variable {β : Type} {f : Segment → Option β}

/-- What is picked from joined templates, if nothing is picked from the segment between them. -/
theorem Template.filterMap_joined {s : Segment} (hs : f s = none) (ts : List Template) :
    (Template.joined s ts).filterMap f = ts.flatMap fun t => t.filterMap f := by
  induction ts with
  | nil => rfl
  | cons t ts ih =>
    cases ts with
    | nil => simp
    | cons u ts =>
      rw [Template.joined_cons_cons, List.filterMap_append, List.filterMap_cons_none hs, ih]
      rfl

variable (hopening : f .opening = none) (hclosing : f .closing = none) (hnot : f .not = none)
  (hlink : ∀ c, f (.link c) = none)

include hlink in
/-- What is picked from a chain comes from its conditions, if this holds of each term. -/
private theorem filterMap_chainTemplate_of_forall (chain : Chain)
    (h : ∀ link ∈ chain, link.2.template.filterMap f =
      link.2.allConditions.flatMap fun c => c.template.filterMap f) :
    (chainTemplate chain).filterMap f =
        chain.conditions.flatMap (fun c => c.template.filterMap f) ∧
      (linkedTemplate chain).filterMap f =
        chain.conditions.flatMap fun c => c.template.filterMap f := by
  induction chain with
  | nil => simp [chainTemplate, linkedTemplate]
  | cons link chain ih =>
    obtain ⟨c, t⟩ := link
    have ht := h (c, t) List.mem_cons_self
    have hrest := (ih fun link hlink => h link (List.mem_cons_of_mem _ hlink)).2
    rw [chainTemplate, linkedTemplate]
    simp only [List.filterMap_append, List.filterMap_cons_none (hlink c), ht, hrest,
      Chain.conditions_cons, List.flatMap_append, and_self]

include hopening hclosing hnot hlink in
/-- What is picked from a term comes from its conditions, if nothing is picked from what joins,
groups and negates them. -/
theorem Term.filterMap_template (t : Term) : t.template.filterMap f =
    t.allConditions.flatMap fun c => c.template.filterMap f := by
  induction t using Term.inductionOn with
  | conditions joined list =>
    rw [Term.template, conditionsTemplate, List.filterMap_cons_none hopening,
      List.filterMap_append, Template.filterMap_joined (hlink joined)]
    simp [hclosing, List.flatMap_map]
  | group chain ih =>
    have hchain := (filterMap_chainTemplate_of_forall hlink chain ih).1
    rw [Term.template, List.filterMap_cons_none hopening, List.filterMap_append, hchain]
    simp [hclosing]
  | not chain ih =>
    have hchain := (filterMap_chainTemplate_of_forall hlink chain ih).1
    rw [Term.template]
    split <;> simp [hnot, hopening, hclosing, hchain]

include hopening hclosing hnot hlink in
/-- What is picked from a chain comes from its conditions, if nothing is picked from what joins,
groups and negates them. -/
theorem Chain.filterMap_template (chain : Chain) : chain.template.filterMap f =
    chain.conditions.flatMap fun c => c.template.filterMap f :=
  (filterMap_chainTemplate_of_forall hlink chain fun link _ =>
    link.2.filterMap_template hopening hclosing hnot hlink).1

end

/-- **The columns of a predicate** are those of its conditions. -/
theorem Chain.fields_template (chain : Chain) :
    chain.template.fields = chain.conditions.map Condition.field := by
  have hcondition (c : Condition) : c.template.filterMap Segment.field? = [c.field] := by
    unfold Condition.template
    cases c.test with
    | compare o operand => cases h : o.isMembership <;> simp [h, Segment.field?]
    | null expected => simp [Segment.field?]
  rw [Template.fields, Chain.filterMap_template rfl rfl rfl fun _ => rfl]
  simp only [hcondition]
  exact List.flatMap_pure_eq_map _ _

/-- The placeholder of a condition is the parameter that it binds. -/
theorem Condition.parameters_template (c : Condition) :
    c.template.filterMap Segment.parameter? = c.binding?.toList.map Prod.fst := by
  unfold Condition.template Condition.binding?
  cases c.test with
  | compare o operand =>
    cases h : o.isMembership <;> simp [h, Segment.parameter?, List.filterMap_cons]
  | null expected => simp [Segment.parameter?]

/-- **The placeholders of a predicate** are the parameters that it binds. -/
theorem Chain.parameters_template (chain : Chain) :
    chain.template.parameters = chain.bindings.map Prod.fst := by
  rw [Template.parameters, Chain.filterMap_template rfl rfl rfl fun _ => rfl, Chain.bindings]
  generalize chain.conditions = list
  induction list with
  | nil => rfl
  | cons c list ih =>
    rw [List.flatMap_cons, ih, Condition.parameters_template, List.filterMap_cons]
    cases c.binding? <;> rfl

/-- A placeholder of a predicate is the parameter of one of its conditions. -/
theorem Chain.exists_of_mem_parameters {chain : Chain} {p : String}
    (hp : p ∈ chain.template.parameters) : ∃ d ∈ chain.conditions, p = d.parameter := by
  rw [Chain.parameters_template] at hp
  obtain ⟨b, hb, rfl⟩ := List.mem_map.mp hp
  obtain ⟨d, hd, hbinding⟩ := List.mem_filterMap.mp hb
  exact ⟨d, hd, Condition.parameter_of_mem_binding? hbinding⟩

/-! ## Keys and queries -/

/-- The template of one key. -/
def keyTemplate (field : String) : Template :=
  [.column field, .operator .eq, .placeholder field]

/-- The template of keys. -/
def Keys.template (keys : Keys) : Template :=
  Template.joined (.link .and) (keys.fields.map keyTemplate)

/-- The template of keys and filter together. Where one is empty it is the other; otherwise they are
linked, as alternatives if the filter asks for that. -/
def joinTemplates (keysTemplate : Template) (filter : Fragment) : Template :=
  if keysTemplate = [] then filter.chain.template
  else if filter.chain.template = [] then keysTemplate
  else
    keysTemplate ++ .link (if filter.isAlternative then .or else .and) :: filter.chain.template

/-- The template of the condition of a query with keys. -/
def Query.template (keys : Keys) (q : Query) : Template :=
  joinTemplates keys.template (q.filter.compile .and 0)

/-- What is picked from keys comes from each key, if nothing is picked from the links. -/
theorem Keys.filterMap_template {β : Type} {f : Segment → Option β} (hlink : f (.link .and) = none)
    (keys : Keys) :
    keys.template.filterMap f = keys.fields.flatMap fun field => (keyTemplate field).filterMap f := by
  rw [Keys.template, Template.filterMap_joined hlink, List.flatMap_map]

/-- What is picked from keys and filter together, if nothing is picked from the link. -/
theorem filterMap_joinTemplates {β : Type} {f : Segment → Option β} (hlink : ∀ c, f (.link c) = none)
    (keysTemplate : Template) (filter : Fragment) :
    (joinTemplates keysTemplate filter).filterMap f =
      keysTemplate.filterMap f ++ filter.chain.template.filterMap f := by
  unfold joinTemplates
  split
  · rename_i h
    rw [h, List.filterMap_nil, List.nil_append]
  · split
    · rename_i h
      rw [h, List.filterMap_nil, List.append_nil]
    · rw [List.filterMap_append, List.filterMap_cons_none (hlink _)]

/-- **The columns of a condition** are those of the keys and then those of the filter. -/
theorem Query.fields_template (keys : Keys) (q : Query) : (q.template keys).fields =
    keys.fields ++ (q.filter.conditions 0).map Condition.field := by
  have hkeys : keys.template.fields = keys.fields := by
    rw [Template.fields, Keys.filterMap_template rfl]
    exact (List.flatMap_pure_eq_map id keys.fields).trans (List.map_id _)
  have hfilter := (q.filter.compile .and 0).chain.fields_template
  rw [Template.fields] at hkeys hfilter
  rw [Template.fields, Query.template, filterMap_joinTemplates (fun _ => rfl), hkeys, hfilter,
    Expr.conditions_compile]

/-- **The placeholders of a condition** are those of the keys and then those of the filter. -/
theorem Query.parameters_template (keys : Keys) (q : Query) :
    (q.template keys).parameters = keys.fields ++ q.filter.parameters := by
  have hkeys : keys.template.parameters = keys.fields := by
    rw [Template.parameters, Keys.filterMap_template rfl]
    exact (List.flatMap_pure_eq_map id keys.fields).trans (List.map_id _)
  have hfilter := (q.filter.compile .and 0).chain.parameters_template
  rw [Template.parameters] at hkeys hfilter
  rw [Template.parameters, Query.template, filterMap_joinTemplates (fun _ => rfl), hkeys, hfilter,
    Chain.bindings, Expr.conditions_compile]
  rfl

/-- The template of keys is empty exactly if there are no keys. -/
theorem Keys.template_eq_nil_iff (keys : Keys) : keys.template = [] ↔ keys.entries = [] := by
  cases h : keys.entries with
  | nil => simp [Keys.template, FieldMap.fields, h]
  | cons e rest => cases rest <;> simp [Keys.template, FieldMap.fields, h, keyTemplate]

/-- The text of keys is that of their template. -/
theorem Keys.chars_template (naming : Naming) (keys : Keys) :
    keys.template.chars naming = (Scope.keysText naming keys).toList := by
  rw [Keys.template, Template.chars, Template.written_joined, Scope.keysText,
    String.toList_intercalate, List.map_map, List.map_map]
  refine congrArg _ (List.map_congr_left fun field _ => ?_)
  simp [Scope.keyText, keyTemplate, Segment.written, Operator.token]

/-- The text of keys is empty exactly if there are no keys. -/
theorem Keys.keysText_eq_empty_iff (naming : Naming) (keys : Keys) :
    Scope.keysText naming keys = "" ↔ keys.entries = [] := by
  rw [← String.toList_eq_nil_iff, ← keys.chars_template, Template.chars_eq_nil_iff,
    keys.template_eq_nil_iff]

/-- The text of keys and filter together is that of their template. -/
theorem chars_joinTemplates (naming : Naming) (keys : Keys) (filter : Fragment) :
    (joinTemplates keys.template filter).chars naming =
      (joinKeys naming (Scope.keysText naming keys) filter).toList := by
  have hkeys := keys.chars_template naming
  have hfilter : filter.chain.template.chars naming = (filter.text naming).toList :=
    filter.chain.chars_template naming
  have hkeysEmpty : (Scope.keysText naming keys).isEmpty = true ↔ keys.template = [] := by
    rw [String.isEmpty_iff, keys.keysText_eq_empty_iff, keys.template_eq_nil_iff]
  have hfilterEmpty : (filter.text naming).isEmpty = true ↔ filter.chain.template = [] := by
    rw [String.isEmpty_iff, ← String.toList_eq_nil_iff, ← hfilter, Template.chars_eq_nil_iff]
  unfold joinTemplates joinKeys
  simp only [hkeysEmpty, hfilterEmpty]
  split
  · exact hfilter
  · split
    · exact hkeys
    · rw [Template.chars] at hkeys hfilter
      simp [Template.chars, Segment.written, hkeys, hfilter]

/-- **The condition of a compiled query is the text of the query's template.** -/
theorem Query.chars_template (options : CompilerOptions) (keys : Keys) (q : Query) :
    (q.template keys).chars options.naming = (q.compile options keys).condition.toList :=
  chars_joinTemplates options.naming keys (q.filter.compile .and 0)

/-- The template of keys is separated. -/
theorem Keys.separated_template (keys : Keys) : Separated keys.template := by
  refine Separated.joined_link .and fun t ht => ?_
  obtain ⟨field, -, rfl⟩ := List.mem_map.mp ht
  simp [keyTemplate, Separated, Segment.Apart, Segment.endsApart, Segment.startsApart]

/-- **The template of a query is separated.** -/
theorem Query.separated_template (keys : Keys) (q : Query) : Separated (q.template keys) := by
  have hfilter := (q.filter.compile .and 0).chain.closed_template.separated
  unfold Query.template joinTemplates
  split
  · exact hfilter
  · split
    · exact keys.separated_template
    · exact keys.separated_template.append_cons rfl (Separated.cons rfl hfilter)

end SqlFilter
