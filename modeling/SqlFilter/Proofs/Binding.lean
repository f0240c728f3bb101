import Mathlib.Data.List.Find
import SqlFilter.Proofs.SortColumns
import SqlFilter.Proofs.Statements

set_option relaxedAutoImplicit false
set_option autoImplicit false

/-!
# What statements bind

A statement is written with named placeholders and executed with question marks. Compiling writes
names into a text and into a map; expanding finds the names in the text and looks them up in the map.
Here the two are put together: every value of keys and filter is bound, once and in order.

## Main definitions

* `Query.selection` — the statements of a compiled query over a table.
* `Query.Expandable` — conditions whose placeholders are found again.
* `Query.allBindings`, `Query.boundCondition` — what they bind, and the condition with question marks.
* `Query.emptyList?` — the first list without items.

## Main results

* `Query.get?_params_of_mem` — keys and operands are found under their names.
* `Query.Expandable.expandChars_condition` — the expansion of the condition of a compiled query.
* `Query.Expandable.expand_bound` — what a statement around such a condition binds.
* `Query.statements_bind` — what the statements of a compiled query bind.
* `Query.not_forall_count_values` — a key without a name is not bound.
-/

namespace SqlFilter

/-! ## What compiled queries bind -/

namespace Query

variable (options : CompilerOptions) (keys : Keys) (q : Query)

/-- The statements of a compiled query over a table. -/
def selection (table : String) : Selection := ⟨table, options.naming, q.compile options keys⟩

@[simp] theorem compiled_selection (table : String) :
    (q.selection options keys table).compiled = q.compile options keys := rfl

/-- The parameters that a query with keys binds: those of the keys that have a name, and then those of
the filter. -/
def allBindings : List (String × Json) :=
  (keys.bindings.filter fun b => b.1 ≠ "") ++ q.filter.bindings

/-- The condition of a query with keys, with question marks. -/
def boundCondition : String :=
  String.ofList ((q.template keys).written options.naming
    (boundText (q.compile options keys).params))

/-- The first parameter of a filter that is bound to an empty list. -/
def emptyList? : Option (String × Json) := q.filter.bindings.find? fun b => b.2.items.isEmpty

/-- Keys and filter are bound in the order of the placeholders of the condition. -/
theorem parameters_template_eq_map :
    (q.template keys).parameters = (keys.bindings ++ q.filter.bindings).map Prod.fst := by
  rw [parameters_template, List.map_append, keys.map_fst_bindings]
  rfl

/-- Every parameter of keys and filter is bound to its own operand, if their names are distinct. -/
theorem get?_params_of_mem (hfresh : ∀ k ∈ keys.fields, k ∉ q.filter.parameters) :
    ∀ b ∈ keys.bindings ++ q.filter.bindings,
      (q.compile options keys).params.get? b.1 = some b.2 := by
  intro b hb
  rcases List.mem_append.mp hb with hb | hb
  · have hfield : b.1 ∈ keys.fields := keys.map_fst_bindings ▸ List.mem_map_of_mem hb
    exact q.get?_params_of_mem_keys options keys hb (hfresh b.1 hfield)
  · exact q.get?_params_of_mem_bindings options keys hb

/-- Only filters bind lists, so only they can bind an empty one; and their parameters have names. -/
theorem find?_bindings : (keys.bindings ++ q.filter.bindings).find?
    (fun b => b.1 ≠ "" && b.2.items.isEmpty) = q.emptyList? := by
  have hkeys : keys.bindings.find? (fun b => b.1 ≠ "" && b.2.items.isEmpty) = none := by
    rw [List.find?_eq_none]
    intro b hb
    obtain ⟨e, -, rfl⟩ := List.mem_map.mp hb
    simp [Scalar.items_toJson]
  rw [List.find?_append, hkeys, Option.none_or]
  refine List.find?_congr fun b hb => ?_
  simp [q.filter.name_ne_empty_of_mem_bindings hb]

/-- The parameters of a filter have names. -/
theorem filter_bindings : (keys.bindings ++ q.filter.bindings).filter (fun b => b.1 ≠ "") =
    q.allBindings keys := by
  have hfilter : q.filter.bindings.filter (fun b => b.1 ≠ "") = q.filter.bindings :=
    List.filter_eq_self.mpr fun b hb => by simp [q.filter.name_ne_empty_of_mem_bindings hb]
  rw [List.filter_append, hfilter, allBindings]

/-- If no list of the filter is empty, each parameter is replaced by as many question marks as its own
operand has values. -/
theorem boundText_of_mem_allBindings (hfresh : ∀ k ∈ keys.fields, k ∉ q.filter.parameters)
    (hempty : q.emptyList? = none) : ∀ b ∈ q.allBindings keys,
      boundText (q.compile options keys).params b.1 = String.ofList (marks b.2.items.length) := by
  intro b hb
  rw [← filter_bindings, List.mem_filter, decide_eq_true_eq] at hb
  obtain ⟨hmem, hname⟩ := hb
  have hitems : b.2.items ≠ [] := by
    have hnone := (q.find?_bindings keys).trans hempty
    rw [List.find?_eq_none] at hnone
    simpa [hname] using hnone b hmem
  rw [boundText, q.get?_params_of_mem options keys hfresh b hmem]
  exact if_neg (not_or.mpr ⟨hname, hitems⟩)

/-- No placeholder begins in a column of the condition, and the placeholders have plain names. So the
placeholders are found where they were written, and nowhere else. -/
structure Expandable : Prop where
  columns : ∀ f ∈ (q.template keys).fields, Inert (options.naming.column f).toList
  parameters : ∀ p ∈ (q.template keys).parameters, IsPlain p

namespace Expandable

variable {options keys q} (h : q.Expandable options keys) {params : FieldMap Json}
  {bindings : List (String × Json)}
  (hparameters : (q.template keys).parameters = bindings.map Prod.fst)
  (hbound : ∀ b ∈ bindings, params.get? b.1 = some b.2)

include h hparameters hbound

/-- **The expansion of the condition** of a compiled query, with values for its placeholders. -/
theorem expandChars_condition :
    expandChars params (q.compile options keys).condition.toList =
      Expansion.ofBindings ((q.template keys).written options.naming (boundText params))
        bindings := by
  have hplain : ∀ b ∈ bindings, IsPlain b.1 := fun b hb =>
    h.parameters b.1 (hparameters ▸ List.mem_map_of_mem hb)
  rw [← q.chars_template options keys]
  exact (q.separated_template keys).expandChars_chars params options.naming h.columns hparameters
    hplain hbound

/-- The condition keeps its text when it is expanded: only the empty template has no text. -/
theorem keepsText (table : String) :
    Selection.KeepsText params (q.selection options keys table) := by
  intro r hr hne hnil
  rw [compiled_selection, h.expandChars_condition hparameters hbound, Expansion.ofBindings] at hr
  split at hr
  · simp at hr
  · rw [← Except.ok.inj hr, Template.written_eq_nil_iff _ _ (boundText_ne_nil _)] at hnil
    have hchars := q.chars_template options keys
    rw [hnil] at hchars
    exact hne (String.toList_eq_nil_iff.mp hchars.symm)

/-- **A statement around the condition** binds what the condition binds, and then what the rest of the
statement binds. -/
theorem expand_around {sql : String} {f : String → String} {v : List Json}
    (hexpand : expandChars params sql.toList =
      (expandChars params (q.compile options keys).condition.toList).map fun r =>
        ((f (String.ofList r.1)).toList, r.2 ++ v)) :
    expand params sql =
      (Expansion.ofBindings ((q.template keys).written options.naming (boundText params))
        bindings).map fun r => ⟨f (String.ofList r.1), r.2 ++ v⟩ := by
  rw [expand_eq_map, hexpand, h.expandChars_condition hparameters hbound]
  unfold Expansion.ofBindings
  split
  · rfl
  · simp [Except.map]

end Expandable

section

variable (htable : IsPlain options.table) (hkeys : ∀ k ∈ keys.fields, IsPlain k)
  (hfields : ∀ f ∈ q.filter.fields, IsPlain f)
  (hfresh : ∀ k ∈ keys.fields, k ∉ q.filter.parameters)

include htable hkeys hfields in
/-- A condition with plain names can be expanded. -/
theorem expandable_of_plain : q.Expandable options keys where
  columns := fun f hf => (Query.plain_column htable hkeys hfields f hf).inert
  parameters := Query.plain_parameter hkeys hfields

include hfresh in
/-- Parameters that include those of a compiled query bind every key and every operand. -/
theorem get?_of_same {params : FieldMap Json}
    (hsame : ∀ p ∈ (q.template keys).parameters,
      params.get? p = (q.compile options keys).params.get? p) :
    ∀ b ∈ keys.bindings ++ q.filter.bindings, params.get? b.1 = some b.2 := by
  intro b hb
  rw [hsame b.1 (q.parameters_template_eq_map keys ▸ List.mem_map_of_mem hb)]
  exact q.get?_params_of_mem options keys hfresh b hb

include htable hkeys hfields hfresh in
/-- The condition of a selection keeps its text when it is expanded. -/
theorem keepsText_selection (table : String) {params : FieldMap Json}
    (hsame : ∀ p ∈ (q.template keys).parameters,
      params.get? p = (q.compile options keys).params.get? p) :
    Selection.KeepsText params (q.selection options keys table) :=
  (q.expandable_of_plain options keys htable hkeys hfields).keepsText
    (q.parameters_template_eq_map keys) (q.get?_of_same options keys hfresh hsame) table

include htable in
/-- A selection with plain names has no colons in them. -/
theorem colonless_selection {table : String} (hname : IsPlain table)
    (horder : ∀ order ∈ q.order, ∀ f ∈ order.fields, IsPlain f) :
    (q.selection options keys table).Colonless where
  table := (hname.quoted options.quote).noColon
  quotedAlias := (htable.quoted options.quote).noColon
  order := by
    intro c hc
    obtain ⟨order, horderMem, e, he, rfl⟩ := exists_field_of_mem_sortColumns hc
    exact (IsPlain.column htable (horder order horderMem e.1 (List.mem_map_of_mem he))).noColon

/-- The names of the limits of a page end with no digit, so no filter binds them. -/
theorem name_ne_limits (htake : Selection.takeName ∉ keys.fields)
    (hskip : Selection.skipName ∉ keys.fields) :
    ∀ p ∈ (q.template keys).parameters, p ≠ Selection.takeName ∧ p ≠ Selection.skipName := by
  intro p hp
  rw [parameters_template, List.mem_append] at hp
  rcases hp with hp | hp
  · exact ⟨fun h => htake (h ▸ hp), fun h => hskip (h ▸ hp)⟩
  · have htake' : Selection.takeName ∉ q.filter.parameters :=
      Expr.notMem_parameters (d := 'e') (by decide) (by decide)
    have hskip' : Selection.skipName ∉ q.filter.parameters :=
      Expr.notMem_parameters (d := 'p') (by decide) (by decide)
    exact ⟨fun h => htake' (h ▸ hp), fun h => hskip' (h ▸ hp)⟩

/-- The parameters of a page are those of the condition, apart from its limits. -/
theorem get?_pageParams (table : String) (paging : Paging) {name : String}
    (h : name ≠ Selection.takeName ∧ name ≠ Selection.skipName) :
    ((q.selection options keys table).pageParams paging).get? name =
      (q.compile options keys).params.get? name := by
  rw [Selection.pageParams, FieldMap.get?_insert, if_neg (Ne.symm h.2), FieldMap.get?_insert,
    if_neg (Ne.symm h.1), selection]

include hfresh in
/-- **A statement around a condition** that can be expanded binds every key with a name and every
operand, in order, and then what the rest of the statement binds. -/
theorem Expandable.expand_bound (h : q.Expandable options keys) {params : FieldMap Json}
    {sql : String} {f : String → String} {v : List Json}
    (hsame : ∀ p ∈ (q.template keys).parameters,
      params.get? p = (q.compile options keys).params.get? p)
    (hexpand : expandChars params sql.toList =
      (expandChars params (q.compile options keys).condition.toList).map fun r =>
        ((f (String.ofList r.1)).toList, r.2 ++ v)) :
    expand params sql =
      match q.emptyList? with
      | some b => .error (.emptyList b.1)
      | none => .ok ⟨f (q.boundCondition options keys),
          (q.allBindings keys).flatMap (fun b => b.2.items) ++ v⟩ := by
  have hwritten : (q.template keys).written options.naming (boundText params) =
      (q.boundCondition options keys).toList := by
    rw [boundCondition, String.toList_ofList]
    exact Template.written_congr fun p hp => by rw [boundText, boundText, hsame p hp]
  rw [h.expand_around (q.parameters_template_eq_map keys) (q.get?_of_same options keys hfresh hsame)
    hexpand, Expansion.ofBindings, find?_bindings, filter_bindings, hwritten]
  cases q.emptyList? with
  | some b => rfl
  | none => simp [Except.map]

include htable hkeys hfields hfresh in
/-- A statement around the condition of a compiled query with plain names. -/
theorem expand_around {params : FieldMap Json} {sql : String} {f : String → String}
    {v : List Json}
    (hsame : ∀ p ∈ (q.template keys).parameters,
      params.get? p = (q.compile options keys).params.get? p)
    (hexpand : expandChars params sql.toList =
      (expandChars params (q.compile options keys).condition.toList).map fun r =>
        ((f (String.ofList r.1)).toList, r.2 ++ v)) :
    expand params sql =
      match q.emptyList? with
      | some b => .error (.emptyList b.1)
      | none => .ok ⟨f (q.boundCondition options keys),
          (q.allBindings keys).flatMap (fun b => b.2.items) ++ v⟩ :=
  (q.expandable_of_plain options keys htable hkeys hfields).expand_bound options keys q hfresh hsame
    hexpand

end

end Query

/-- **The statements of a compiled query bind every operand once, in order, in its own place.**

The condition is a template whose placeholders are those of keys and filter, one after the other. If
some list of the filter is empty, all three statements fail and name the parameter of the first one.
Otherwise each statement is the text around the condition, with the placeholders of the condition
replaced by question marks: as many for each as its own operand has values. The values are those of
the operands in the order of the placeholders, and for a page then its limits. A key without a name
has no placeholder and binds nothing.

**Proof sketch.** The condition is expanded segment by segment, and each placeholder looks up the
operand that was bound under its name. The texts around the condition have no colon, and delimiters
stand where they meet it. -/
theorem Query.statements_bind (options : CompilerOptions) (keys : Keys) (q : Query) (table : String)
    (paging : Paging) (hname : IsPlain table) (halias : IsPlain options.table)
    (hkeys : ∀ k ∈ keys.fields, IsPlain k) (hfields : ∀ f ∈ q.filter.fields, IsPlain f)
    (horder : ∀ order ∈ q.order, ∀ f ∈ order.fields, IsPlain f)
    (hfresh : ∀ k ∈ keys.fields, k ∉ q.filter.parameters)
    (htake : Selection.takeName ∉ keys.fields) (hskip : Selection.skipName ∉ keys.fields) :
    let s := q.selection options keys table
    let template := q.template keys
    let values := (q.allBindings keys).flatMap fun b => b.2.items
    let bound := s.withCondition (q.boundCondition options keys)
    s.compiled.condition = String.ofList (template.written options.naming placeholder) ∧
      template.parameters = (keys.bindings ++ q.filter.bindings).map Prod.fst ∧
      match q.emptyList? with
      | some b =>
        s.page paging = .error (.emptyList b.1) ∧ s.count = .error (.emptyList b.1) ∧
          s.exist = .error (.emptyList b.1)
      | none =>
        (∀ b ∈ q.allBindings keys, boundText s.compiled.params b.1 =
          String.ofList (marks b.2.items.length)) ∧
        s.page paging = .ok ⟨bound.pageHead ++ " LIMIT ? OFFSET ?", values ++
          [Json.ofInt (paging.resolveTake q.take), Json.ofInt (Paging.resolveSkip q.skip)]⟩ ∧
        s.count = .ok ⟨bound.countText, values⟩ ∧ s.exist = .ok ⟨bound.existText, values⟩ := by
  intro s template values bound
  have hcolonless : s.Colonless := q.colonless_selection options keys halias hname horder
  have hsame : ∀ p ∈ template.parameters,
      (s.pageParams paging).get? p = (q.compile options keys).params.get? p := fun p hp =>
    q.get?_pageParams options keys table paging (q.name_ne_limits keys htake hskip p hp)
  have hkeeps := q.keepsText_selection options keys halias hkeys hfields hfresh table
    fun _ _ => rfl
  have hpageKeeps := q.keepsText_selection options keys halias hkeys hfields hfresh table hsame
  have htakeBound : (s.pageParams paging).get? Selection.takeName =
      some (Json.ofInt (paging.resolveTake q.take)) := by
    rw [Selection.pageParams, FieldMap.get?_insert, if_neg (by decide), FieldMap.get?_insert,
      if_pos rfl]
    rfl
  have hskipBound : (s.pageParams paging).get? Selection.skipName =
      some (Json.ofInt (Paging.resolveSkip q.skip)) := by
    rw [Selection.pageParams, FieldMap.get?_insert, if_pos rfl]
    rfl
  have hpage := q.expand_around options keys halias hkeys hfields hfresh hsame
    (f := fun c => (s.withCondition c).pageHead ++ " LIMIT ? OFFSET ?")
    (Selection.expandChars_pageText _ hcolonless hpageKeeps htakeBound hskipBound)
  have hcountText := Selection.expandChars_countText _ hcolonless hkeeps
  have hexistText := Selection.expandChars_existText _ hcolonless hkeeps
  have hcount := q.expand_around options keys halias hkeys hfields hfresh (fun _ _ => rfl)
    (f := fun c => (s.withCondition c).countText) (v := [])
    (by simp only [List.append_nil]; exact hcountText)
  have hexist := q.expand_around options keys halias hkeys hfields hfresh (fun _ _ => rfl)
    (f := fun c => (s.withCondition c).existText) (v := [])
    (by simp only [List.append_nil]; exact hexistText)
  refine ⟨?_, q.parameters_template_eq_map keys, ?_⟩
  · have hchars : template.written options.naming placeholder = s.compiled.condition.toList :=
      q.chars_template options keys
    rw [hchars, String.ofList_toList]
  · cases hempty : q.emptyList? with
    | some b =>
      simp only [hempty] at hpage hcount hexist
      exact ⟨hpage, hcount, hexist⟩
    | none =>
      simp only [hempty, List.append_nil] at hpage hcount hexist
      exact ⟨q.boundText_of_mem_allBindings options keys hfresh hempty, hpage, hcount, hexist⟩

/-- A query with a list, a negated node with a null test, an order and a limit above the largest
one. -/
def rolesQuery : Query where
  filter := .node
    (fun
      | .gt => some (.ofList [("age", .num (.int 18))])
      | .member => some (.ofList [("role", [.str "a", .str "b"])])
      | _ => none)
    (some (.node
      (fun
        | .like => some (.ofList [("name", "%x:y")])
        | .null => some (.ofList [("left", true)])
        | _ => none)
      none none none none)) none none none
  order := some (.ofList [("age", -1)])
  rawCondition := none
  offset := none
  limit := none
  existsOnly := none
  skip := none
  take := some 1000

/-- A page of the query with a key: every operand in its place, and a list as two question marks. -/
theorem Query.statements_bind_rolesQuery :
    (rolesQuery.selection .default (.ofList [("tenant", .str ":acme")]) "users").page .default =
      .ok ⟨"SELECT target.* FROM users AS target WHERE target.tenant = ? AND (target.age > ?) AND " ++
          "(target.role IN (?, ?)) AND NOT ((target.name LIKE ?) AND (target.left IS NULL)) " ++
          "ORDER BY target.age DESC LIMIT ? OFFSET ?",
        [.str ":acme", .num (.int 18), .str "a", .str "b", .str "%x:y", .num (.int 500),
          .num (.int 0)]⟩ := by
  obtain ⟨-, -, h⟩ := Query.statements_bind .default (.ofList [("tenant", .str ":acme")]) rolesQuery
    "users" .default (by decide) (by decide) (by decide) (by decide) (by decide) (by decide)
    (by decide) (by decide)
  have hempty : rolesQuery.emptyList? = none := rfl
  rw [hempty] at h
  obtain ⟨-, hpage, -, -⟩ := h
  rw [hpage, Except.ok.injEq, BoundStatement.mk.injEq]
  exact ⟨by decide +kernel, rfl⟩

/-- **A key without a name is not bound**, although an empty name has no delimiter and no colon: the
colon of its placeholder stays in the statement and its value is missing. So not every key is
bound. -/
theorem Query.not_forall_count_values :
    ¬ ∀ (options : CompilerOptions) (keys : Keys) (q : Query) (table : String), IsPlain table →
      IsPlain options.table → (∀ k ∈ keys.fields, IsPlain k) → (∀ f ∈ q.filter.fields, IsPlain f) →
      (∀ order ∈ q.order, ∀ f ∈ order.fields, IsPlain f) →
      (∀ k ∈ keys.fields, k ∉ q.filter.parameters) → Selection.takeName ∉ keys.fields →
      Selection.skipName ∉ keys.fields → q.emptyList? = none →
      ∃ sql, (q.selection options keys table).count =
        .ok ⟨sql, (keys.bindings ++ q.filter.bindings).flatMap fun b => b.2.items⟩ := by
  intro h
  obtain ⟨sql, hsql⟩ := h .default (.ofList [("", .num (.int 5))]) .empty "t" (by decide) (by decide)
    (by decide) (by decide) (by decide) (by decide) (by decide) (by decide) rfl
  have hcount : (Query.empty.selection .default (.ofList [("", .num (.int 5))]) "t").count =
      .ok ⟨"SELECT COUNT(*) FROM t AS target WHERE target. = :", []⟩ := rfl
  rw [hcount, Except.ok.injEq, BoundStatement.mk.injEq] at hsql
  exact List.cons_ne_nil _ _ hsql.2.symm

end SqlFilter
