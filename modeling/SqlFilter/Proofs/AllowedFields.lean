import SqlFilter.Proofs.SortColumns
import SqlFilter.Proofs.Text

set_option relaxedAutoImplicit false
set_option autoImplicit false

/-!
# Allowed fields

A client may ask about some fields only. The check reads the fields off the tree of its query, and
compiling writes columns while it walks through the same tree in another order. Here the two agree:
what passes the check has no other columns than those of allowed fields, apart from the keys.

## Main results

* `Expr.fields_template_perm` — the columns of a compiled tree are those of the fields of the tree.
* `Query.parseAllowed_eq_ok_iff` — which texts pass the check.
* `Query.allowed_fields_cover` — the check covers every column, and names the first forbidden field.
-/

namespace SqlFilter

/-- **The columns of a compiled tree are those of its fields**, each as often as the tree tests it. -/
theorem Expr.fields_template_perm (e : Expr) (c : Conjunction) (before : Nat) :
    (e.compile c before).chain.template.fields.Perm e.fields := by
  rw [Chain.fields_template, conditions_compile]
  exact e.fields_conditions_perm before

namespace Query

variable {limits : Limits} {allowed : List String} {text : String} {q : Query}

/-- The fields of a query are those of its filter and then those of its order. -/
theorem fields_eq_append (q : Query) :
    q.fields = q.filter.fields ++ q.order.elim [] FieldMap.fields := by
  rw [fields]
  cases q.order <;> rfl

/-- A query has the fields of its filter and those of its order. -/
theorem mem_fields_iff {f : String} :
    f ∈ q.fields ↔ f ∈ q.filter.fields ∨ ∃ order ∈ q.order, f ∈ order.fields := by
  rw [fields_eq_append, List.mem_append]
  cases q.order <;> simp

/-- The forbidden field that is reported is the first one that is not allowed. -/
theorem forbiddenField?_eq_some_iff {f : String} : q.forbiddenField? allowed = some f ↔
    f ∉ allowed ∧ ∃ before after, q.fields = before ++ f :: after ∧ ∀ g ∈ before, g ∈ allowed := by
  rw [forbiddenField?, List.find?_eq_some_iff_append]
  simp

/-- No field is reported if all of them are allowed. -/
theorem forbiddenField?_eq_none_iff :
    q.forbiddenField? allowed = none ↔ ∀ f ∈ q.fields, f ∈ allowed := by
  rw [forbiddenField?, List.find?_eq_none]
  simp

/-- **Which texts pass the check**: those that are read as a query with allowed fields only. -/
theorem parseAllowed_eq_ok_iff : parseAllowed limits allowed text = .ok q ↔
    parse limits text = .ok q ∧ ∀ f ∈ q.fields, f ∈ allowed := by
  rw [parseAllowed]
  cases parse limits text with
  | error e => simp
  | ok p =>
    cases hforbidden : p.forbiddenField? allowed with
    | none =>
      simp only [hforbidden, Except.ok.injEq]
      constructor
      · rintro rfl
        exact ⟨rfl, forbiddenField?_eq_none_iff.mp hforbidden⟩
      · rintro ⟨h, -⟩
        exact h
    | some f =>
      simp only [hforbidden, Except.ok.injEq, reduceCtorEq, false_iff, not_and]
      rintro rfl hall
      rw [forbiddenField?_eq_none_iff.mpr hall] at hforbidden
      simp at hforbidden

/-- A text that is read as a query fails the check with the first field that is not allowed. -/
theorem parseAllowed_eq_error_of_first (hparse : parse limits text = .ok q) {f : String}
    (hf : f ∉ allowed) {before after : List String} (hfields : q.fields = before ++ f :: after)
    (hbefore : ∀ g ∈ before, g ∈ allowed) :
    parseAllowed limits allowed text = .error (.fieldNotAllowed f) := by
  rw [parseAllowed, hparse]
  simp only [forbiddenField?_eq_some_iff.mpr ⟨hf, before, after, hfields, hbefore⟩]

/-- **The allowed fields cover everything that is compiled.**

- The columns in the text of a compiled tree are those of the fields of the tree, as often as the tree
  tests them.
- If a text passes the check, then all columns of its condition that are not those of keys, and all
  sort columns, are columns of allowed fields.
- If a text is read as a query, but some field of its filter or its order is not allowed, then it is
  refused with the first such field, where those of the filter come first.

**Proof sketch.** The fields of the template of a tree are those of its conditions, which are a
permutation of the fields of the tree. The check looks through the fields of filter and order in
this order, so it passes exactly if all of them are allowed, and else it stops at the first one that
is not. -/
theorem allowed_fields_cover (limits : Limits) (allowed : List String) (text : String) :
    (∀ (e : Expr) (c : Conjunction) (before : Nat) (naming : Naming),
      (e.compile c before).chain.template.chars naming =
          ((e.compile c before).text naming).toList ∧
        (e.compile c before).chain.template.fields.Perm e.fields) ∧
    (∀ q, parseAllowed limits allowed text = .ok q → ∀ (options : CompilerOptions) (keys : Keys),
      ∃ columns, (q.template keys).fields = keys.fields ++ columns ∧
        (q.template keys).chars options.naming = (q.compile options keys).condition.toList ∧
        (∀ f ∈ columns, f ∈ allowed) ∧
        ∀ c ∈ (q.compile options keys).order, ∃ f ∈ allowed, c.column = options.naming.column f) ∧
    (∀ q, parse limits text = .ok q →
      (∃ f ∈ q.filter.fields ++ q.order.elim [] FieldMap.fields, f ∉ allowed) →
      ∃ before f after, q.filter.fields ++ q.order.elim [] FieldMap.fields = before ++ f :: after ∧
        (∀ g ∈ before, g ∈ allowed) ∧ f ∉ allowed ∧
        parseAllowed limits allowed text = .error (.fieldNotAllowed f)) := by
  refine ⟨fun e c before naming => ?_, fun q hq options keys => ?_, fun q hparse hforbidden => ?_⟩
  · exact ⟨Chain.chars_template naming _, e.fields_template_perm c before⟩
  · obtain ⟨-, hall⟩ := parseAllowed_eq_ok_iff.mp hq
    refine ⟨(q.filter.conditions 0).map Condition.field, q.fields_template keys,
      q.chars_template options keys, fun f hf => ?_, fun c hc => ?_⟩
    · have hmem := (q.filter.fields_conditions_perm 0).subset hf
      exact hall f (mem_fields_iff.mpr (.inl hmem))
    · obtain ⟨order, horder, e, he, rfl⟩ := exists_field_of_mem_sortColumns hc
      have hmem : e.1 ∈ order.fields := List.mem_map_of_mem he
      exact ⟨e.1, hall e.1 (mem_fields_iff.mpr (.inr ⟨order, horder, hmem⟩)), rfl⟩
  · rw [← q.fields_eq_append] at hforbidden ⊢
    cases hfound : q.forbiddenField? allowed with
    | none =>
      obtain ⟨f, hf, hnot⟩ := hforbidden
      exact absurd (forbiddenField?_eq_none_iff.mp hfound f hf) hnot
    | some f =>
      obtain ⟨hnot, before, after, hsplit, hbefore⟩ := forbiddenField?_eq_some_iff.mp hfound
      exact ⟨before, f, after, hsplit, hbefore, hnot,
        parseAllowed_eq_error_of_first hparse hnot hsplit hbefore⟩

/-- A text whose filter and order have the fields `a`, `b` and `c`. Only all three together pass.

**Proof sketch.** Evaluation gives only the fields of the parsed query, which are `a`, `b` and `c`.
That `c` is refused, with an error that has this name, and that all three pass, is
`allowed_fields_cover` at the two lists: the refused field is one of the three and is neither `a`
nor `b`. -/
theorem allowed_fields_cover_orderField :
    let text := "\x7b\"not\":\x7b\"in\":\x7b\"b\":[1]\x7d\x7d,\"eq\":\x7b\"a\":\"b\"\x7d," ++
      "\"order\":\x7b\"c\":1\x7d\x7d"
    parseAllowed .default ["a", "b"] text = .error (.fieldNotAllowed "c") ∧
      ∃ q, parseAllowed .default ["a", "b", "c"] text = .ok q ∧
        ∀ (options : CompilerOptions) (keys : Keys),
          ∃ columns, (q.template keys).fields = keys.fields ++ columns ∧
            (q.template keys).chars options.naming = (q.compile options keys).condition.toList ∧
            (∀ f ∈ columns, f ∈ ["a", "b", "c"]) ∧
            ∀ c ∈ (q.compile options keys).order,
              ∃ f ∈ ["a", "b", "c"], c.column = options.naming.column f := by
  intro text
  have hfields : (parse .default text).toOption.map
      (fun q => q.filter.fields ++ q.order.elim [] FieldMap.fields) = some ["a", "b", "c"] := by
    decide +kernel
  cases hparse : parse .default text with
  | error e => simp [hparse, Except.toOption] at hfields
  | ok q =>
    have hq : q.filter.fields ++ q.order.elim [] FieldMap.fields = ["a", "b", "c"] := by
      simpa [hparse, Except.toOption] using hfields
    obtain ⟨before, f, after, hsplit, -, hnot, herror⟩ :=
      (allowed_fields_cover .default ["a", "b"] text).2.2 q hparse
        ⟨"c", by rw [hq]; decide, by decide⟩
    have hf : f ∈ ["a", "b", "c"] := by
      rw [← hq, hsplit]
      simp
    obtain rfl : f = "c" := by
      simp only [List.mem_cons, List.not_mem_nil, or_false, not_or] at hf hnot
      exact (hf.resolve_left hnot.1).resolve_left hnot.2
    have hok : parseAllowed .default ["a", "b", "c"] text = .ok q :=
      parseAllowed_eq_ok_iff.mpr ⟨hparse, fun f hf => hq ▸ q.fields_eq_append ▸ hf⟩
    exact ⟨herror, q, hok, (allowed_fields_cover .default ["a", "b", "c"] text).2.1 q hok⟩

end Query

end SqlFilter
