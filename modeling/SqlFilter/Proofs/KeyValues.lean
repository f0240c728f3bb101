import Mathlib.Data.List.Basic
import SqlFilter.Proofs.Binding

set_option relaxedAutoImplicit false
set_option autoImplicit false

/-!
# The values of keys

Keys are constraints of trusted code, and the filter beside them is a client's. Both name parameters of
one map, where a later value replaces an earlier one. A key keeps its value against a filter that does
not generate the name of the key, and it is bound in the place of its own condition. A filter that does
generate the name takes the place of the key.

## Design

Names of parameters can meet in three ways: a key is named like a parameter of the filter, or like a
limit of a page, or a key has no name at all and so no placeholder. Each key is judged alone. What
happens to the others is part of the statement, because a text is bound with whatever its parameters
hold.

## Main definitions

* `Template.values` — the values that the placeholders of a template bind.
* `Template.boundAround`, `Template.valuesAround` — a bound condition, with a key in its place.

## Main results

* `Query.Expandable.eq_of_expand_eq_ok` — what a statement binds that can be expanded.
* `Query.exists_template_eq` — every key has its condition in the template of a query.
* `Query.size_params_eq_iff` — the number of parameters of a query with keys.
* `Query.keys_keep_values` — what keys are bound to, in the parameters and in statements.
* `Query.keys_lose_values_pairQuery` — a field of the filter overwrites a key.
-/

namespace SqlFilter

/-! ## Values of templates -/

namespace Template

variable (params : Params)

/-- The values that the placeholders of a template bind, in order. A placeholder without a name is
none. -/
def values (t : Template) : List Json :=
  t.parameters.flatMap fun p => if p = "" then [] else (params.get? p).elim [] Json.items

/-- The values of two templates, one after the other. -/
theorem values_append (a b : Template) : values params (a ++ b) = a.values params ++ b.values params := by
  rw [values, parameters, List.filterMap_append, List.flatMap_append]
  rfl

/-- The placeholders of a template with what their parameters hold. -/
def lookups (t : Template) : List (String × Json) :=
  t.parameters.map fun p => (p, (params.get? p).getD .null)

/-- The names of what is looked up are those of the placeholders. -/
theorem map_fst_lookups (t : Template) : (t.lookups params).map Prod.fst = t.parameters := by
  simp [lookups, Function.comp_def]

/-- What is looked up is found, if all placeholders have a value. -/
theorem get?_of_mem_lookups {t : Template} (htotal : ∀ p ∈ t.parameters, ∃ v, params.get? p = some v) :
    ∀ b ∈ t.lookups params, params.get? b.1 = some b.2 := by
  intro b hb
  obtain ⟨p, hp, rfl⟩ := List.mem_map.mp hb
  obtain ⟨v, hv⟩ := htotal p hp
  simp [hv]

/-- What is bound to placeholders that all have a value. -/
theorem eq_of_ofBindings_eq_ok {t : Template} {text : List Char} {r : List Char × List Json}
    (htotal : ∀ p ∈ t.parameters, ∃ v, params.get? p = some v)
    (hr : Expansion.ofBindings text (t.lookups params) = .ok r) : r = (text, t.values params) := by
  rw [Expansion.ofBindings] at hr
  split at hr
  · simp at hr
  · rw [← Except.ok.inj hr, Prod.mk.injEq]
    refine ⟨rfl, ?_⟩
    rw [lookups, values]
    clear hr
    generalize t.parameters = names at htotal ⊢
    induction names with
    | nil => rfl
    | cons p names ih =>
      obtain ⟨v, hv⟩ := htotal p List.mem_cons_self
      have hrest := ih fun p' hp' => htotal p' (List.mem_cons_of_mem _ hp')
      rw [List.map_cons, List.flatMap_cons, ← hrest, List.filter_cons]
      by_cases hp : p = "" <;> simp [hp, hv]

/-- A template among joined ones stands between two others. -/
theorem exists_joined_eq {s : Segment} {t : Template} {ts : List Template} (ht : t ∈ ts) :
    ∃ front back, joined s ts = front ++ (t ++ back) := by
  induction ts with
  | nil => simp at ht
  | cons u ts ih =>
    cases ts with
    | nil =>
      obtain rfl : t = u := by simpa using ht
      exact ⟨[], [], by simp⟩
    | cons w ts =>
      rw [joined_cons_cons]
      rcases List.mem_cons.mp ht with rfl | ht
      · exact ⟨[], s :: joined s (w :: ts), rfl⟩
      · obtain ⟨front, back, hjoined⟩ := ih ht
        exact ⟨u ++ s :: front, back, by rw [hjoined, List.append_assoc]; rfl⟩

end Template

/-! ## Statements that can be expanded -/

namespace Query

variable {options : CompilerOptions} {keys : Keys} {q : Query}

/-- **What a statement around the condition binds** when all its placeholders have a value: each is
replaced by a question mark for each item of that value. -/
theorem Expandable.eq_of_expand_eq_ok (h : q.Expandable options keys) {params : Params}
    (htotal : ∀ p ∈ (q.template keys).parameters, ∃ v, params.get? p = some v) {sql : String}
    {f : String → String} {v : List Json}
    (hexpand : expandChars params sql.toList =
      (expandChars params (q.compile options keys).condition.toList).map fun r =>
        ((f (String.ofList r.1)).toList, r.2 ++ v))
    {r : BoundStatement} (hr : expand params sql = .ok r) :
    r = ⟨f (String.ofList ((q.template keys).written options.naming (boundText params))),
      (q.template keys).values params ++ v⟩ := by
  rw [h.expand_around (Template.map_fst_lookups params _).symm
    (Template.get?_of_mem_lookups params htotal) hexpand] at hr
  cases hx : Expansion.ofBindings ((q.template keys).written options.naming (boundText params))
      ((q.template keys).lookups params) with
  | error e => simp [hx, Except.map] at hr
  | ok x =>
    rw [hx] at hr
    rw [Template.eq_of_ofBindings_eq_ok params htotal hx] at hr
    exact (Except.ok.inj hr).symm

/-- A condition whose placeholders all have a value keeps its text when it is expanded. -/
theorem Expandable.keepsText_of_total (h : q.Expandable options keys) {params : Params}
    (htotal : ∀ p ∈ (q.template keys).parameters, ∃ v, params.get? p = some v) (table : String) :
    Selection.KeepsText params (q.selection options keys table) :=
  h.keepsText (Template.map_fst_lookups params _).symm (Template.get?_of_mem_lookups params htotal)
    table

variable (options keys q)

/-- Every placeholder of a condition has a value. -/
theorem exists_get?_params : ∀ p ∈ (q.template keys).parameters,
    ∃ v, (q.compile options keys).params.get? p = some v := by
  intro p hp
  -- the filter is compiled last, so its operand is what a shared name holds
  by_cases hfilter : p ∈ q.filter.parameters
  · obtain ⟨b, hb, rfl⟩ := List.mem_map.mp hfilter
    exact ⟨b.2, q.get?_params_of_mem_bindings options keys hb⟩
  · rw [parameters_template, List.mem_append, ← keys.map_fst_bindings] at hp
    obtain ⟨b, hb, rfl⟩ := List.mem_map.mp (hp.resolve_right hfilter)
    exact ⟨b.2, q.get?_params_of_mem_keys options keys hb hfilter⟩

/-- Every placeholder of a condition has a value in a page. -/
theorem exists_get?_pageParams (table : String) (paging : Paging) :
    ∀ p ∈ (q.template keys).parameters,
      ∃ v, ((q.selection options keys table).pageParams paging).get? p = some v := by
  intro p hp
  rw [Selection.pageParams, FieldMap.get?_insert, FieldMap.get?_insert]
  split
  · exact ⟨_, rfl⟩
  · split
    · exact ⟨_, rfl⟩
    · exact q.exists_get?_params options keys p hp

/-- **Every key has its condition** in the template of a query. -/
theorem exists_template_eq {k : String} (hk : k ∈ keys.fields) :
    ∃ front back, q.template keys = front ++ (keyTemplate k ++ back) := by
  obtain ⟨front, back, hkeys⟩ : ∃ front back, keys.template = front ++ (keyTemplate k ++ back) :=
    Template.exists_joined_eq (List.mem_map_of_mem hk)
  have hne : keys.template ≠ [] := by
    rw [hkeys]
    simp [keyTemplate]
  rw [template, joinTemplates, if_neg hne]
  split
  · exact ⟨front, back, hkeys⟩
  · exact ⟨front, back ++ _, by rw [hkeys, List.append_assoc, List.append_assoc]⟩

end Query

/-! ## Keys in their places -/

/-- The condition between whose parts a key is bound to a value. -/
def Template.boundAround (naming : Naming) (params : Params) (front back : Template) (key : String) :
    String :=
  String.ofList (front.written naming (boundText params) ++
    ((naming.column key ++ " = ?").toList ++ back.written naming (boundText params)))

/-- The values of a condition between whose parts a key is bound to a value. -/
def Template.valuesAround (params : Params) (front back : Template) (value : Json) : List Json :=
  front.values params ++ value :: back.values params

section

variable {options : CompilerOptions} {keys : Keys} {q : Query} {params : Params}
  {front back : Template} {e : String × Scalar} (hname : e.1 ≠ "")
  (hvalue : params.get? e.1 = some e.2.toJson)

include hname hvalue in
/-- A key with a name is replaced by one question mark. -/
theorem written_keyTemplate (naming : Naming) :
    String.ofList ((front ++ (keyTemplate e.1 ++ back)).written naming (boundText params)) =
      Template.boundAround naming params front back e.1 := by
  have htext : boundText params e.1 = "?" := by
    rw [boundText, hvalue]
    simp [hname, Scalar.items_toJson, marks]
  rw [Template.boundAround, Template.written_append, Template.written_append]
  simp [keyTemplate, Segment.written, Operator.token, htext]

include hname hvalue in
/-- A key with a name binds its value. -/
theorem values_keyTemplate : Template.values params (front ++ (keyTemplate e.1 ++ back)) =
    Template.valuesAround params front back e.2.toJson := by
  have hvalues : (keyTemplate e.1).values params = [e.2.toJson] := by
    simp [Template.values, Template.parameters, keyTemplate, List.filterMap_cons, Segment.parameter?,
      hname, hvalue, Scalar.items_toJson]
  rw [Template.values_append, Template.values_append, hvalues]
  rfl

include hname hvalue in
/-- **A key is bound in its place** by every statement around the condition. -/
theorem Query.Expandable.eq_of_keyTemplate (h : q.Expandable options keys)
    (htotal : ∀ p ∈ (q.template keys).parameters, ∃ v, params.get? p = some v)
    (htemplate : q.template keys = front ++ (keyTemplate e.1 ++ back)) {sql : String}
    {f : String → String} {v : List Json}
    (hexpand : expandChars params sql.toList =
      (expandChars params (q.compile options keys).condition.toList).map fun r =>
        ((f (String.ofList r.1)).toList, r.2 ++ v))
    {r : BoundStatement} (hr : expand params sql = .ok r) :
    r = ⟨f (Template.boundAround options.naming params front back e.1),
      Template.valuesAround params front back e.2.toJson ++ v⟩ := by
  rw [h.eq_of_expand_eq_ok htotal hexpand hr, htemplate,
    written_keyTemplate hname hvalue options.naming, values_keyTemplate hname hvalue]

end

/-- The parameters of a query with keys are one for each key and one for each operand exactly if no key
is named like a parameter of the filter. -/
theorem Query.size_params_eq_iff (options : CompilerOptions) (keys : Keys) (q : Query) :
    (q.compile options keys).params.size = keys.size + q.filter.bindings.length ↔
      ∀ k ∈ keys.fields, k ∉ q.filter.parameters := by
  have hsize : (FieldMap.empty.insertAll keys.bindings).size = keys.size := by
    rw [FieldMap.size, keys.entries_insertAll_bindings, Keys.bindings, List.length_map,
      FieldMap.size]
  rw [params_compile, ← hsize, FieldMap.size_insertAll_eq_iff _ q.filter.nodup_parameters,
    keys.fields_insertAll_bindings]
  rfl

/-- **Keys keep their values** against filters that do not generate their names.

- The parameters of a compiled query are one for each key and one for each operand of the filter
  exactly if no key has the name of a parameter of the filter.
- A key whose name is none of these is bound to its own value. If it has a name, then a statement that
  can be bound has a question mark in the place of the key's placeholder, and the value of the key in
  the place of that question mark: after the values of what stands before it and before those of what
  follows. For a page this also needs that the key is not named like a limit of the page.

**Proof sketch.** Each entry of a filter is one more parameter unless its name is there. The template
of the condition has the key's condition between two others, and each placeholder is replaced by what
its parameter holds. -/
theorem Query.keys_keep_values (options : CompilerOptions) (keys : Keys) (q : Query) (table : String)
    (paging : Paging) (hname : IsPlain table) (halias : IsPlain options.table)
    (hkeys : ∀ k ∈ keys.fields, IsPlain k) (hfields : ∀ f ∈ q.filter.fields, IsPlain f)
    (horder : ∀ order ∈ q.order, ∀ f ∈ order.fields, IsPlain f) :
    let s := q.selection options keys table
    let params := s.compiled.params
    let pageParams := s.pageParams paging
    s.compiled.condition = String.ofList ((q.template keys).written options.naming placeholder) ∧
    (params.size = keys.size + q.filter.bindings.length ↔
      ∀ k ∈ keys.fields, k ∉ q.filter.parameters) ∧
    ∀ e ∈ keys.entries, e.1 ∉ q.filter.parameters →
      params.get? e.1 = some e.2.toJson ∧
      (e.1 ≠ "" → ∃ front back : Template,
        q.template keys = front ++ (keyTemplate e.1 ++ back) ∧
        let bound := fun p => s.withCondition (Template.boundAround options.naming p front back e.1)
        let values := fun p => Template.valuesAround p front back e.2.toJson
        (∀ r, s.count = .ok r → r = ⟨(bound params).countText, values params⟩) ∧
        (∀ r, s.exist = .ok r → r = ⟨(bound params).existText, values params⟩) ∧
        (e.1 ≠ Selection.takeName → e.1 ≠ Selection.skipName → ∀ r, s.page paging = .ok r →
          r = ⟨(bound pageParams).pageHead ++ " LIMIT ? OFFSET ?", values pageParams ++
            [Json.ofInt (paging.resolveTake q.take), Json.ofInt (Paging.resolveSkip q.skip)]⟩)) := by
  intro s params pageParams
  have hexpandable := q.expandable_of_plain options keys halias hkeys hfields
  have hcolonless : s.Colonless := q.colonless_selection options keys halias hname horder
  have htotal := q.exists_get?_params options keys
  have hpageTotal := q.exists_get?_pageParams options keys table paging
  have hkeeps : Selection.KeepsText params s := hexpandable.keepsText_of_total htotal table
  have hpageKeeps : Selection.KeepsText pageParams s :=
    hexpandable.keepsText_of_total hpageTotal table
  have hchars : (q.template keys).written options.naming placeholder =
      s.compiled.condition.toList := q.chars_template options keys
  refine ⟨by rw [hchars, String.ofList_toList], q.size_params_eq_iff options keys, ?_⟩
  intro e he hfresh
  have hbinding : (e.1, e.2.toJson) ∈ keys.bindings := List.mem_map_of_mem he
  have hvalue : params.get? e.1 = some e.2.toJson :=
    q.get?_params_of_mem_keys options keys hbinding hfresh
  refine ⟨hvalue, fun hne => ?_⟩
  -- other keys may have lost their values: the parts around this one bind whatever is there
  obtain ⟨front, back, htemplate⟩ :=
    q.exists_template_eq keys (k := e.1) (List.mem_map_of_mem he)
  refine ⟨front, back, htemplate, ?_, ?_, ?_⟩
  · intro r hr
    have hcount := hexpandable.eq_of_keyTemplate hne hvalue htotal htemplate (v := [])
      (f := fun c => (s.withCondition c).countText)
      (by simp only [List.append_nil]; exact Selection.expandChars_countText _ hcolonless hkeeps) hr
    rwa [List.append_nil] at hcount
  · intro r hr
    have hexist := hexpandable.eq_of_keyTemplate hne hvalue htotal htemplate (v := [])
      (f := fun c => (s.withCondition c).existText)
      (by simp only [List.append_nil]; exact Selection.expandChars_existText _ hcolonless hkeeps) hr
    rwa [List.append_nil] at hexist
  · intro htake hskip r hr
    have hpageValue : pageParams.get? e.1 = some e.2.toJson :=
      (q.get?_pageParams options keys table paging ⟨htake, hskip⟩).trans hvalue
    exact hexpandable.eq_of_keyTemplate hne hpageValue hpageTotal htemplate
      (f := fun c => (s.withCondition c).pageHead ++ " LIMIT ? OFFSET ?")
      (Selection.expandChars_pageText_pageParams paging hcolonless hpageKeeps) hr

/-- A key beside a filter with three operands: four parameters, and the key keeps its value. -/
theorem Query.keys_keep_values_rolesQuery :
    let params := (rolesQuery.compile .default (.ofList [("tenant", .str ":acme")])).params
    params.size = 4 ∧ params.get? "tenant" = some (.str ":acme") := by
  obtain ⟨-, hsize, hkeys⟩ := Query.keys_keep_values .default (.ofList [("tenant", .str ":acme")])
    rolesQuery "users" .default (by decide) (by decide) (by decide) (by decide) (by decide)
  exact ⟨hsize.mpr (by decide), (hkeys ("tenant", .str ":acme") (by decide) (by decide)).1⟩

/-- A query that asks for one value of one field. -/
def pairQuery : Query :=
  { Query.empty with
    filter := .node (fun | .eq => some (.ofList [("a", .num (.int 2))]) | _ => none)
      none none none none }

/-- The key that has the name of the parameter of that field. -/
def collidingKeys : Keys := .ofList [("a_1_0", .num (.int 1))]

/-- **A field of a filter overwrites a key** that has the name of its parameter: there is one parameter
for both, and both conditions are bound to the operand of the filter. -/
theorem Query.keys_lose_values_pairQuery :
    let s := pairQuery.selection .default collidingKeys "t"
    s.compiled.params.size < collidingKeys.size + pairQuery.filter.bindings.length ∧
      s.compiled.params.get? "a_1_0" = some (.num (.int 2)) ∧
      s.count = .ok ⟨"SELECT COUNT(*) FROM t AS target WHERE target.a_1_0 = ? AND (target.a = ?)",
        [.num (.int 2), .num (.int 2)]⟩ :=
  ⟨by decide, rfl, rfl⟩

end SqlFilter
