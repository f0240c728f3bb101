import Mathlib.Data.List.Basic
import SqlFilter.Proofs.Binding
import SqlFilter.Proofs.Quotation

set_option relaxedAutoImplicit false
set_option autoImplicit false

/-!
# Names in quotation marks

Quotation marks let a column have any name for the database, but placeholders are found in the whole
text of a statement, in quotation marks or not. A name is written twice for a condition with an
operand: as a column, where no placeholder must begin, and as part of a placeholder, which must be
found as a whole. A null test has no placeholder, so its field may be any name in which none begins.

## Design

What a name must satisfy is a condition on the name alone, since a quotation mark is neither a
delimiter nor a colon. It is the same in all styles of quotation. The order does not occur in the
statements that count rows and ask for one, so nothing is asked of its fields there.

## Main definitions

* `IsEnclosable` — names in which no placeholder begins, also before a quotation mark.
* `Condition.IsBindable` — what a condition asks of the name of its field.

## Main results

* `IsEnclosable.inert_column` — no placeholder begins in the column of an enclosable name.
* `Query.quoted_names_bind` — statements over columns with blanks, parentheses or colons in their names.
* `Query.not_forall_quoted_names_bind` — a blank in the name of an operand's field is fatal.
-/

namespace SqlFilter

/-! ## Enclosed names -/

namespace Quote

variable {m : Char}

/-- Doubling marks goes through joined texts. -/
theorem doubled_append (a b : List Char) : doubled m (a ++ b) = doubled m a ++ doubled m b :=
  List.flatMap_append

/-- Doubling marks keeps the first character. -/
theorem head?_doubled (cs : List Char) : (doubled m cs).head? = cs.head? := by
  cases cs with
  | nil => rfl
  | cons c cs =>
    rw [doubled_cons]
    by_cases hc : c = m <;> simp [hc]

/-- Doubling marks keeps the last character. -/
theorem getLast?_doubled (cs : List Char) : (doubled m cs).getLast? = cs.getLast? := by
  rcases List.eq_nil_or_concat cs with rfl | ⟨init, c, rfl⟩
  · rfl
  · rw [List.concat_eq_append, doubled_append, doubled_cons]
    by_cases hc : c = m <;> simp [hc, doubled]

/-- Doubling marks keeps a text inert, since a mark is no colon. -/
theorem inert_doubled (hm : m ≠ ':') {cs : List Char} (h : Inert cs) : Inert (doubled m cs) := by
  induction cs with
  | nil => exact .nil
  | cons c cs ih =>
    have hcs : Inert (doubled m cs) := ih h.tail
    rw [doubled_cons]
    by_cases hc : c = m
    · rw [if_pos hc]
      have hmarks : Inert [m, m] := Inert.of_noColon (by simpa using Ne.symm hm)
      exact hmarks.append hcs (by simpa using hm)
    · rw [if_neg hc, List.singleton_append]
      refine List.IsChain.cons hcs fun d hd hcolon => ?_
      rw [head?_doubled] at hd
      exact (List.isChain_cons.mp h).1 d hd hcolon

/-- A text in quotation marks is inert, if it is inert itself and does not end with a colon. -/
theorem inert_enclosed (hm : m ≠ ':') {cs : List Char} (h : Inert cs)
    (hlast : cs.getLast? ≠ some ':') : Inert (enclosed m cs) := by
  have hmark : Inert [m] := Inert.of_noColon (by simpa using Ne.symm hm)
  have hbody : Inert (doubled m cs ++ [m]) :=
    (inert_doubled hm h).append hmark (by rwa [getLast?_doubled])
  exact hmark.append hbody (by simpa using hm)

/-- No mark of a style is a colon. -/
theorem mark_ne_colon {q : Quote} (hmark : q.mark = some m) : m ≠ ':' := by
  rintro rfl
  cases q <;> simp [mark] at hmark

end Quote

/-- A name in which no placeholder begins, also before a quotation mark: each of its colons is followed
by a delimiter that is part of the name. -/
def IsEnclosable (name : String) : Prop := Inert name.toList ∧ name.toList.getLast? ≠ some ':'

instance (name : String) : Decidable (IsEnclosable name) :=
  inferInstanceAs (Decidable (Inert name.toList ∧ name.toList.getLast? ≠ some ':'))

/-- A plain name is enclosable. -/
theorem IsPlain.enclosable {name : String} (h : IsPlain name) : IsEnclosable name :=
  ⟨h.inert, fun hlast => h.noColon (List.mem_of_getLast? hlast)⟩

/-- No placeholder begins in an enclosable name, however it is quoted. -/
theorem IsEnclosable.inert_quoted {name : String} (h : IsEnclosable name) (q : Quote) :
    Inert (q.quoted name).toList := by
  unfold Quote.quoted
  split
  · exact h.1
  · rename_i m hmark
    rw [String.toList_ofList]
    exact Quote.inert_enclosed (Quote.mark_ne_colon hmark) h.1 h.2

/-- **No placeholder begins in the column of an enclosable name**, if the alias is plain. -/
theorem IsEnclosable.inert_column {naming : Naming} {field : String} (h : IsEnclosable field)
    (htable : IsPlain naming.table) : Inert (naming.column field).toList := by
  have htable' : ':' ∉ (naming.quote.quoted naming.table ++ ".").toList := by
    simpa using (htable.quoted naming.quote).noColon
  rw [Naming.column, Quote.qualified, String.toList_append]
  exact (Inert.of_noColon htable').append (h.inert_quoted naming.quote)
    fun hlast => htable' (List.mem_of_getLast? hlast)

/-! ## Conditions on enclosable names -/

/-- The name of the field of a condition is such that its column keeps its text and its placeholder, if
it has one, is found as a whole. -/
def Condition.IsBindable (c : Condition) : Prop :=
  match c.test with
  | .compare _ _ => IsPlain c.field
  | .null _ => IsEnclosable c.field

instance (c : Condition) : Decidable c.IsBindable :=
  match h : c.test with
  | .compare _ _ => decidable_of_iff (IsPlain c.field) (by simp [Condition.IsBindable, h])
  | .null _ => decidable_of_iff (IsEnclosable c.field) (by simp [Condition.IsBindable, h])

namespace Condition.IsBindable

variable {c : Condition} (h : c.IsBindable)

include h

/-- The field of a bindable condition is enclosable. -/
theorem enclosable : IsEnclosable c.field := by
  unfold IsBindable at h
  split at h
  · exact h.enclosable
  · exact h

/-- The parameter of a bindable condition is plain, if it has one. -/
theorem plain_of_mem_binding? {b : String × Json} (hb : b ∈ c.binding?) : IsPlain b.1 := by
  unfold binding? at hb
  unfold IsBindable at h
  split at hb
  · rename_i htest
    simp only [htest] at h
    rw [← Option.some.inj hb]
    exact h.parameter
  · simp at hb

end Condition.IsBindable

/-- A condition over bindable conditions can be expanded. -/
theorem Query.expandable_of_bindable {options : CompilerOptions} {keys : Keys} {q : Query}
    (halias : IsPlain options.table) (hkeys : ∀ k ∈ keys.fields, IsPlain k)
    (hconditions : ∀ c ∈ q.filter.conditions 0, c.IsBindable) : q.Expandable options keys where
  columns := by
    intro f hf
    rw [Query.fields_template, List.mem_append] at hf
    rcases hf with hf | hf
    · exact (hkeys f hf).enclosable.inert_column halias
    · obtain ⟨c, hc, rfl⟩ := List.mem_map.mp hf
      exact (hconditions c hc).enclosable.inert_column halias
  parameters := by
    intro p hp
    rw [Query.parameters_template, List.mem_append] at hp
    rcases hp with hp | hp
    · exact hkeys p hp
    · obtain ⟨b, hb, rfl⟩ := List.mem_map.mp hp
      obtain ⟨c, hc, hbinding⟩ := List.mem_filterMap.mp hb
      exact (hconditions c hc).plain_of_mem_binding? hbinding

/-! ## Columns in statements -/

/-- A template has the text of each of its columns. -/
theorem Template.infix_written (naming : Naming) (write : String → String) {t : Template}
    {field : String} (h : field ∈ t.fields) :
    (naming.column field).toList <:+: t.written naming write := by
  obtain ⟨s, hs, hfield⟩ := List.mem_filterMap.mp h
  obtain rfl : s = .column field := by
    cases s <;> simp [Segment.field?] at hfield
    rw [hfield]
  exact List.infix_of_mem_flatten (List.mem_map_of_mem hs)

namespace Selection

variable (s : Selection) (condition : String)

/-- The source of a selection has the text of its condition. -/
theorem infix_source : condition.toList <:+: (s.withCondition condition).source.toList := by
  by_cases hempty : condition = ""
  · rw [hempty]
    exact List.nil_infix
  · have hne : (s.withCondition condition).compiled.condition ≠ "" := by
      rwa [condition_withCondition]
    rw [toList_source_of_ne hne, condition_withCondition, ← List.append_assoc]
    exact (List.suffix_append _ _).isInfix

/-- The statement that counts has the text of its condition. -/
theorem infix_countText : condition.toList <:+: (s.withCondition condition).countText.toList := by
  rw [toList_countText]
  exact (s.infix_source condition).trans (List.suffix_append _ _).isInfix

/-- The statement that asks for a row has the text of its condition. -/
theorem infix_existText : condition.toList <:+: (s.withCondition condition).existText.toList := by
  rw [toList_existText, ← List.append_assoc]
  exact (s.infix_source condition).trans (List.infix_append _ _ _)

end Selection

namespace Query

variable {options : CompilerOptions} {keys : Keys} {q : Query}

/-- If every key has a name, every key is bound. -/
theorem allBindings_of_named (h : ∀ k ∈ keys.fields, k ≠ "") :
    q.allBindings keys = keys.bindings ++ q.filter.bindings := by
  have hnamed : keys.bindings.filter (fun b => b.1 ≠ "") = keys.bindings := by
    refine List.filter_eq_self.mpr fun b hb => ?_
    have hfield : b.1 ∈ keys.fields := keys.map_fst_bindings ▸ List.mem_map_of_mem hb
    simpa using h b.1 hfield
  rw [allBindings, hnamed]

/-- **The statements without an order** bind what a condition that can be expanded binds, whatever the
fields of the order are. -/
theorem Expandable.count_exist (h : q.Expandable options keys) {table : String}
    (hname : IsPlain table) (halias : IsPlain options.table)
    (hfresh : ∀ k ∈ keys.fields, k ∉ q.filter.parameters) (hempty : q.emptyList? = none) :
    let s := q.selection options keys table
    let values := (q.allBindings keys).flatMap fun b => b.2.items
    let bound := s.withCondition (q.boundCondition options keys)
    s.count = .ok ⟨bound.countText, values⟩ ∧ s.exist = .ok ⟨bound.existText, values⟩ := by
  intro s values bound
  -- neither statement has an order, so that of the query can be left out
  let unordered : Query := { q with order := none }
  let s' := unordered.selection options keys table
  have hcolonless : s'.Colonless :=
    unordered.colonless_selection options keys halias hname (by simp [unordered])
  have hkeeps : Selection.KeepsText s'.compiled.params s' :=
    h.keepsText (q.parameters_template_eq_map keys) (q.get?_params_of_mem options keys hfresh) table
  have hcount : s'.count = _ := h.expand_bound options keys q hfresh (fun _ _ => rfl)
    (f := fun c => (s'.withCondition c).countText) (v := [])
    (by simp only [List.append_nil]; exact Selection.expandChars_countText _ hcolonless hkeeps)
  have hexist : s'.exist = _ := h.expand_bound options keys q hfresh (fun _ _ => rfl)
    (f := fun c => (s'.withCondition c).existText) (v := [])
    (by simp only [List.append_nil]; exact Selection.expandChars_existText _ hcolonless hkeeps)
  simp only [hempty, List.append_nil] at hcount hexist
  exact ⟨hcount, hexist⟩

end Query

/-- **Statements over columns with unusual names** bind every key and every operand in order, and keep
the text of every column, if

- the names of table, alias, keys and fields with an operand have no delimiter and no colon, and no key
  is without a name or named like a parameter of the filter;
- every colon in the name of a field that is tested for null is followed by a delimiter there;
- no list of the filter is empty.

Quotation marks may stand anywhere in these names, and nothing is asked of the fields of the order.

**Proof sketch.** No placeholder begins in a column, and each one is found as a whole. So the text is
expanded segment by segment, which changes placeholders only. -/
theorem Query.quoted_names_bind (options : CompilerOptions) (keys : Keys) (q : Query) (table : String)
    (hname : IsPlain table) (halias : IsPlain options.table)
    (hkeys : ∀ k ∈ keys.fields, IsPlain k ∧ k ≠ "")
    (hconditions : ∀ c ∈ q.filter.conditions 0, c.IsBindable)
    (hfresh : ∀ k ∈ keys.fields, k ∉ q.filter.parameters) (hempty : q.emptyList? = none) :
    let s := q.selection options keys table
    let bindings := keys.bindings ++ q.filter.bindings
    let values := bindings.flatMap fun b => b.2.items
    let bound := s.withCondition (q.boundCondition options keys)
    s.compiled.condition = String.ofList ((q.template keys).written options.naming placeholder) ∧
      (q.template keys).parameters = bindings.map Prod.fst ∧
      (∀ b ∈ bindings, boundText s.compiled.params b.1 = String.ofList (marks b.2.items.length)) ∧
      s.count = .ok ⟨bound.countText, values⟩ ∧ s.exist = .ok ⟨bound.existText, values⟩ ∧
      ∀ f, f ∈ keys.fields ∨ f ∈ q.filter.fields →
        (options.naming.column f).toList <:+: bound.countText.toList ∧
          (options.naming.column f).toList <:+: bound.existText.toList := by
  intro s bindings values bound
  have hexpandable : q.Expandable options keys :=
    Query.expandable_of_bindable halias (fun k hk => (hkeys k hk).1) hconditions
  have hall : q.allBindings keys = bindings := Query.allBindings_of_named fun k hk => (hkeys k hk).2
  obtain ⟨hcount, hexist⟩ := hexpandable.count_exist hname halias hfresh hempty
  rw [hall] at hcount hexist
  have hchars : (q.template keys).written options.naming placeholder =
      s.compiled.condition.toList := q.chars_template options keys
  refine ⟨by rw [hchars, String.ofList_toList], q.parameters_template_eq_map keys, ?_, hcount,
    hexist, ?_⟩
  · rw [← hall]
    exact q.boundText_of_mem_allBindings options keys hfresh hempty
  · intro f hf
    have hfield : f ∈ (q.template keys).fields := by
      rw [Query.fields_template, List.mem_append]
      exact hf.imp_right fun h => (q.filter.fields_conditions_perm 0).symm.subset h
    have hcondition : (options.naming.column f).toList <:+:
        (q.boundCondition options keys).toList := by
      rw [Query.boundCondition, String.toList_ofList]
      exact Template.infix_written _ _ hfield
    exact ⟨hcondition.trans (s.infix_countText _), hcondition.trans (s.infix_existText _)⟩

/-- A query over columns with quotation marks, a blank and a colon in their names, sorted by a column
that looks like a placeholder. -/
def unusualQuery : Query :=
  { Query.empty with
    filter := .node
      (fun
        | .eq => some (.ofList [("na\x60me", .str "x")])
        | .null => some (.ofList [("left at: (\x60UTC\x60)", true)])
        | _ => none)
      none none none none
    order := some (.ofList [(":take", 1)]) }

/-- The settings that quote with backticks. -/
def backtickOptions : CompilerOptions := { CompilerOptions.default with quote := .backtick }

/-- Counting the rows of that query with a key. -/
theorem Query.quoted_names_bind_unusualQuery :
    (unusualQuery.selection backtickOptions (.ofList [("id", .num (.int 5))]) "t").count =
      .ok ⟨"SELECT COUNT(*) FROM \x60t\x60 AS \x60target\x60 WHERE \x60target\x60.\x60id\x60 = ? AND " ++
          "(\x60target\x60.\x60na\x60\x60me\x60 = ?) AND " ++
          "(\x60target\x60.\x60left at: (\x60\x60UTC\x60\x60)\x60 IS NULL)",
        [.num (.int 5), .str "x"]⟩ := by
  obtain ⟨-, -, -, hcount, -, -⟩ := Query.quoted_names_bind backtickOptions
    (.ofList [("id", .num (.int 5))]) unusualQuery "t" (by decide) (by decide) (by decide)
    (by decide) (by decide) rfl
  rw [hcount, Except.ok.injEq, BoundStatement.mk.injEq]
  exact ⟨by decide +kernel, rfl⟩

/-- A query that asks for one value of a field with a blank in its name. -/
def blankQuery : Query :=
  { Query.empty with
    filter := .node (fun | .eq => some (.ofList [("created at", .num (.int 1))]) | _ => none)
      none none none none }

/-- **Quotation marks do not make every name usable**: a blank in the name of a field with an operand
ends the placeholder of the operand, and what is left of it is the name of no parameter. -/
theorem Query.not_forall_quoted_names_bind :
    ¬ ∀ (options : CompilerOptions) (keys : Keys) (q : Query) (table : String),
      options.quote ≠ .none → IsPlain table → IsPlain options.table →
      (∀ k ∈ keys.fields, k ∉ q.filter.parameters) → q.emptyList? = none →
      ∃ sql, (q.selection options keys table).count =
        .ok ⟨sql, (keys.bindings ++ q.filter.bindings).flatMap fun b => b.2.items⟩ := by
  intro h
  obtain ⟨sql, hsql⟩ := h backtickOptions .empty blankQuery "t" (by decide) (by decide) (by decide)
    (by decide) rfl
  have hcount : (blankQuery.selection backtickOptions .empty "t").count =
      .error (.unknownParameter "created") := rfl
  rw [hcount] at hsql
  cases hsql

end SqlFilter
