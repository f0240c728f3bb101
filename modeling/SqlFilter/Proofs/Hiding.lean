import SqlFilter.Proofs.Binding
import SqlFilter.Proofs.Redaction

set_option relaxedAutoImplicit false
set_option autoImplicit false

/-!
# Operands stay out of statements

Two clients that ask about the same fields in the same way get the same statement, whatever they ask
for: their operands are bound and never written. The condition and the names of the parameters are
told by the shape of the filter alone. The statements with question marks are told by that shape and
by the lengths of the lists, and so are the errors.

## Design

Nothing here asks for plain names. An odd name may well be cut at its delimiters when placeholders are
expanded, but it is cut in the same way whatever is bound. That is so because expansion looks at
parameters only through the number of their values (`Expansion.text_expandChars`), and what it writes
is not looked at again.

## Main definitions

* `Expr.outline` — the shape of a tree, with the lengths of its lists.
* `Params.widths` — how many values each parameter has.
* `Expansion.text` — the text of an expansion without the values, or its error.

## Main results

* `Expr.widths_eq_of_outline_eq` — outlines tell how many values each parameter of a tree has.
* `Expansion.text_expandChars` — widths tell the text of an expansion.
* `Query.statements_hide_operands` — no operand is seen in a condition or in a statement.
-/

namespace SqlFilter

/-! ## Outlines -/

/-- The parameter that a condition binds, with the number of its values. -/
def Condition.width? (c : Condition) : Option (String × Nat) :=
  c.binding?.map fun b => (b.1, b.2.items.length)

namespace Redaction

/-- The redaction that leaves the lengths of lists. -/
def lengths : Redaction := .ofMembers (List.map fun _ => .bool false)

/-- The lengths of lists show how many values a condition binds. -/
theorem hides_width? : lengths.Hides Condition.width? := by
  intro field node position o k x
  have hscalar (x : Scalar) : x.toJson.items.length = 1 := by rw [x.items_toJson]; rfl
  cases k with
  | scalars =>
    simp [Condition.width?, Condition.binding?, Kind.test, Kind.toJson, Condition.parameter, hscalar]
  | patterns => rfl
  | members =>
    simp [Condition.width?, Condition.binding?, Kind.test, Kind.toJson, Condition.parameter,
      Json.items, lengths, ofMembers]
  | nulls => rfl

end Redaction

namespace Expr

/-- **The outline of a tree**: its shape, with lists as long as they are but without their items. -/
def outline (e : Expr) : Expr := e.redact .lengths

/-- **Trees of the same outline bind the same number of values to each parameter.** -/
theorem widths_eq_of_outline_eq {e e' : Expr} (h : e.outline = e'.outline) :
    e.bindings.map (fun b => (b.1, b.2.items.length)) =
      e'.bindings.map fun b => (b.1, b.2.items.length) := by
  have hwidths (e : Expr) : e.bindings.map (fun b => (b.1, b.2.items.length)) =
      ((e.conditions 0).map Condition.width?).filterMap id := by
    rw [bindings, List.map_filterMap, List.filterMap_map]
    rfl
  have hsame (e : Expr) : (e.outline.conditions 0).map Condition.width? =
      (e.conditions 0).map Condition.width? := by
    rw [← conditions_compile e .and 0, ← conditions_compile e.outline .and 0]
    exact Chain.map_conditions_eq_of_sketch_eq (sketch_compile_redact Redaction.hides_width? e .and 0)
  rw [hwidths, hwidths, ← hsame e, ← hsame e', h]

end Expr

/-! ## What parameters show of their values -/

/-- How many values each parameter has. -/
def Params.widths (params : Params) : FieldMap Nat := params.mapValues fun v => v.items.length

namespace Query

variable (options : CompilerOptions) {keys keys' : Keys} {q q' : Query}

/-- What is seen of parameters is told by what is seen of the values that are bound. -/
theorem mapValues_params_eq {β : Type} (f : Json → β)
    (hkeys : keys.bindings.map (fun b => (b.1, f b.2)) = keys'.bindings.map fun b => (b.1, f b.2))
    (hfilter : q.filter.bindings.map (fun b => (b.1, f b.2)) =
      q'.filter.bindings.map fun b => (b.1, f b.2)) :
    (q.compile options keys).params.mapValues f = (q'.compile options keys').params.mapValues f := by
  rw [params_compile, params_compile]
  simp only [FieldMap.mapValues_insertAll, hkeys, hfilter]

/-- **Keys of the same names and filters of the same shape have the same parameters.** -/
theorem fields_params_eq (hkeys : keys.fields = keys'.fields)
    (hfilter : q.filter.shape = q'.filter.shape) :
    (q.compile options keys).params.fields = (q'.compile options keys').params.fields := by
  have hnames (bindings : List (String × Json)) : bindings.map (fun b => (b.1, ())) =
      (bindings.map Prod.fst).map fun name => (name, ()) := by
    rw [List.map_map]
    rfl
  have hkeyNames : keys.bindings.map (fun b => (b.1, ())) =
      keys'.bindings.map fun b => (b.1, ()) := by
    rw [hnames, hnames, keys.map_fst_bindings, keys'.map_fst_bindings, hkeys]
  have hfilterNames : q.filter.bindings.map (fun b => (b.1, ())) =
      q'.filter.bindings.map fun b => (b.1, ()) := by
    rw [hnames, hnames]
    exact congrArg _ (Expr.parameters_eq_of_shape_eq hfilter)
  have hparams := mapValues_params_eq options (fun _ => ()) hkeyNames hfilterNames
  simpa using congrArg FieldMap.fields hparams

/-- **Keys of the same names and filters of the same outline have parameters of the same widths.** -/
theorem widths_params_eq (hkeys : keys.fields = keys'.fields)
    (hfilter : q.filter.outline = q'.filter.outline) :
    Params.widths (q.compile options keys).params =
      Params.widths (q'.compile options keys').params := by
  have hkey (keys : Keys) : keys.bindings.map (fun b => (b.1, b.2.items.length)) =
      keys.fields.map fun f => (f, 1) := by
    simp [Keys.bindings, FieldMap.fields, Scalar.items_toJson]
  exact mapValues_params_eq options _ (by rw [hkey, hkey, hkeys])
    (Expr.widths_eq_of_outline_eq hfilter)

end Query

/-! ## Expansion looks at widths only -/

namespace Expansion

/-- The text of an expansion without its values, or its error. -/
def text (x : Expansion) : Except BindError (List Char) := x.map Prod.fst

/-- Texts of expansions are joined without their values. -/
theorem text_append_congr {x x' y y' : Expansion} (hx : x.text = x'.text) (hy : y.text = y'.text) :
    (x.append y).text = (x'.append y').text := by
  cases x <;> cases x' <;> cases y <;> cases y' <;> simp_all [text, append, Except.map]

/-- What a placeholder is replaced by is told by the width of its parameter. -/
theorem text_expandName (params : Params) (name : String) :
    text (expandName params name) =
      match params.widths.get? name with
      | none => .error (.unknownParameter name)
      | some width => if width = 0 then .error (.emptyList name) else .ok (marks width) := by
  rw [Params.widths, FieldMap.get?_mapValues]
  cases h : params.get? name with
  | none =>
    rw [expandName, h]
    rfl
  | some v =>
    rw [expandName_of_get? h, Option.map_some]
    simp only [List.length_eq_zero_iff]
    split <;> rfl

variable {params params' : Params} (h : params.widths = params'.widths)

include h in
/-- Parameters of the same widths write the same word. -/
theorem text_expandWord (word : List Char) :
    text (expandWord params word) = text (expandWord params' word) := by
  cases hname : Word.name? word with
  | none => rw [expandWord, expandWord, hname]
  | some name =>
    rw [expandWord_of_name? params hname, expandWord_of_name? params' hname]
    exact text_append_congr rfl (by rw [text_expandName, text_expandName, h])

include h in
/-- Parameters of the same widths write the same words. -/
theorem text_expandRest (rest : List (Char × List Char)) :
    text (expandRest params rest) = text (expandRest params' rest) := by
  induction rest with
  | nil => rfl
  | cons p rest ih =>
    rw [expandRest_cons, expandRest_cons]
    exact text_append_congr rfl (text_append_congr (text_expandWord h p.2) ih)

include h in
/-- **Parameters of the same widths write the same text**, or fail alike. -/
theorem text_expandChars (cs : List Char) :
    text (expandChars params cs) = text (expandChars params' cs) := by
  rw [expandChars_eq, expandChars_eq]
  exact text_append_congr (text_expandWord h _) (text_expandRest h _)

include h in
/-- Parameters of the same widths give the same statement, or fail alike. -/
theorem sql_expand (sql : String) : (expand params sql).map BoundStatement.sql =
    (expand params' sql).map BoundStatement.sql := by
  have hsql (params : Params) : (expand params sql).map BoundStatement.sql =
      (text (expandChars params sql.toList)).map String.ofList := by
    rw [expand_eq_map]
    cases expandChars params sql.toList <;> rfl
  rw [hsql, hsql, text_expandChars h]

end Expansion

/-! ## Statements -/

namespace Selection

/-- The statements with named placeholders are told by the table, the naming, the condition and the
order. -/
theorem texts_eq (s s' : Selection) (htable : s.table = s'.table) (hnaming : s.naming = s'.naming)
    (hcondition : s.compiled.condition = s'.compiled.condition)
    (horder : s.compiled.order = s'.compiled.order) :
    s.pageText = s'.pageText ∧ s.countText = s'.countText ∧ s.existText = s'.existText := by
  obtain ⟨table, naming, condition, params, order, skip, take⟩ := s
  obtain ⟨table', naming', condition', params', order', skip', take'⟩ := s'
  obtain rfl : table = table' := htable
  obtain rfl : naming = naming' := hnaming
  obtain rfl : condition = condition' := hcondition
  obtain rfl : order = order' := horder
  exact ⟨rfl, rfl, rfl⟩

/-- The numbers of rows to fetch and to skip are one value each. -/
theorem widths_pageParams {s s' : Selection}
    (h : Params.widths s.compiled.params = Params.widths s'.compiled.params)
    (paging paging' : Paging) :
    Params.widths (s.pageParams paging) = Params.widths (s'.pageParams paging') := by
  rw [Params.widths, Params.widths] at h
  rw [pageParams, pageParams, Params.widths, Params.widths]
  simp only [FieldMap.mapValues_insert, h]
  rfl

end Selection

/-- **No operand is seen in a condition or in a statement.** Take two pairs of keys and queries with
the same names of keys, filters of the same shape and the same order. All operands may differ, and so
may everything else about the queries.

- They compile to the same condition, the same names of parameters and the same sort columns.
- If their lists are of the same lengths, then they have the same statements over any table, or these
  fail with the same error, however their pages are limited.

Names need not be plain.

**Proof sketch.** The condition is the text of a template, which depends on names of keys and on the
shape of the filter only. A statement is expanded by the names of its parameters and the numbers of
values behind each of them (`Expansion.sql_expand`), and lists of the same lengths have the same
numbers. -/
theorem Query.statements_hide_operands (options : CompilerOptions) (keys keys' : Keys)
    (q q' : Query) (hkeys : keys.fields = keys'.fields)
    (hfilter : q.filter.shape = q'.filter.shape) (horder : q.order = q'.order) :
    (q.compile options keys).condition = (q'.compile options keys').condition ∧
      (q.compile options keys).params.fields = (q'.compile options keys').params.fields ∧
      (q.compile options keys).order = (q'.compile options keys').order ∧
      (q.filter.outline = q'.filter.outline → ∀ (table : String) (paging paging' : Paging),
        let s := q.selection options keys table
        let s' := q'.selection options keys' table
        (s.page paging).map BoundStatement.sql = (s'.page paging').map BoundStatement.sql ∧
          s.count.map BoundStatement.sql = s'.count.map BoundStatement.sql ∧
          s.exist.map BoundStatement.sql = s'.exist.map BoundStatement.sql) := by
  have hcondition : (q.compile options keys).condition = (q'.compile options keys').condition := by
    rw [← String.toList_inj, ← q.chars_template, ← q'.chars_template,
      template_eq_of_shape_eq hkeys hfilter]
  have hcolumns : (q.compile options keys).order = (q'.compile options keys').order :=
    congrArg (sortColumns options.naming options.priority) horder
  refine ⟨hcondition, fields_params_eq options hkeys hfilter, hcolumns, ?_⟩
  intro houtline table paging paging' s s'
  have hwidths : Params.widths s.compiled.params = Params.widths s'.compiled.params :=
    widths_params_eq options hkeys houtline
  obtain ⟨hpage, hcount, hexist⟩ :=
    Selection.texts_eq s s' rfl rfl hcondition hcolumns
  refine ⟨?_, ?_, ?_⟩
  · rw [Selection.page, Selection.page, hpage]
    exact Expansion.sql_expand (Selection.widths_pageParams hwidths paging paging') _
  · rw [Selection.count, Selection.count, hcount]
    exact Expansion.sql_expand hwidths _
  · rw [Selection.exist, Selection.exist, hexist]
    exact Expansion.sql_expand hwidths _

/-- A query like `rolesQuery` with operands that look like statements and like placeholders. -/
def injectingQuery : Query where
  filter := .node
    (fun
      | .gt => some (.ofList [("age", .str "18) OR (1 = 1")])
      | .member => some (.ofList [("role", [.str "?", .str ":tenant"])])
      | _ => none)
    (some (.node
      (fun
        | .like => some (.ofList [("name", "'; DROP TABLE users; --")])
        | .null => some (.ofList [("left", true)])
        | _ => none)
      none none none none)) none none none
  order := some (.ofList [("age", -1)])
  rawCondition := some "1 = 1"
  offset := some 7
  limit := some 7
  existsOnly := some true
  skip := some 7
  take := none

/-- The same page for operands of any kind. -/
theorem Query.statements_hide_operands_injectingQuery :
    ((injectingQuery.selection .default (.ofList [("tenant", .str ":__take")]) "users").page
        ⟨1, 1⟩).map BoundStatement.sql =
      ((rolesQuery.selection .default (.ofList [("tenant", .str ":acme")]) "users").page
        .default).map BoundStatement.sql := by
  have hredact (f : List Scalar → List Scalar)
      (hf : f [.str "?", .str ":tenant"] = f [.str "a", .str "b"]) :
      injectingQuery.filter.redact (.ofMembers f) = rolesQuery.filter.redact (.ofMembers f) := by
    rw [injectingQuery, rolesQuery]
    simp only [Expr.redact_node, Option.map_none, Option.map_some]
    congr 1
    · funext o
      cases o with
      | member => exact congrArg (fun items => some (FieldMap.ofList [("role", items)])) hf
      | _ => rfl
    · congr 2
      funext o
      cases o <;> rfl
  have hshape : injectingQuery.filter.shape = rolesQuery.filter.shape := hredact _ rfl
  have houtline : injectingQuery.filter.outline = rolesQuery.filter.outline := hredact _ rfl
  obtain ⟨-, -, -, h⟩ := Query.statements_hide_operands .default
    (.ofList [("tenant", .str ":__take")]) (.ofList [("tenant", .str ":acme")]) injectingQuery
    rolesQuery rfl hshape rfl
  exact (h houtline "users" ⟨1, 1⟩ .default).1

end SqlFilter
