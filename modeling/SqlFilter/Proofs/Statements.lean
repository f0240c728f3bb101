import SqlFilter.Proofs.Lexemes
import SqlFilter.Selection

set_option relaxedAutoImplicit false
set_option autoImplicit false

/-!
# Expansion of statements

A statement is the text of a condition between other texts: the table before it, the order and the
limits of a page behind it. With names that have no colon only the condition and the limits have
placeholders. So a condition is expanded segment by segment, and a statement by expanding its
condition.

## Design

The name of a placeholder is not empty, so the placeholder of a key with an empty name is none: its
colon stays, and nothing is bound there.

## Main definitions

* `Json.items` — the values that an operand binds.
* `boundText` — what the placeholder of a parameter is replaced by.
* `Expansion.ofBindings` — the expansion of a text with given bindings.
* `Selection.withCondition`, `Selection.pageHead` — the texts of statements around a condition.

## Main results

* `Separated.expandChars_chars` — the expansion of a template.
* `Selection.expandChars_countText`, `Selection.expandChars_existText`,
  `Selection.expandChars_pageText` — statements are expanded by expanding their condition.
-/

namespace SqlFilter

/-! ## What a parameter is replaced by -/

/-- The values that an operand binds: the items of a list, or the operand itself. -/
def Json.items : Json → List Json
  | .arr items => items
  | v => [v]

/-- The operands of keys are single values. -/
theorem Scalar.items_toJson (x : Scalar) : x.toJson.items = [x.toJson] := by
  cases x <;> rfl

/-- A parameter that is bound is replaced by one question mark for each of its values, if there is
any. -/
theorem expandName_of_get? {params : FieldMap Json} {name : String} {v : Json}
    (h : params.get? name = some v) :
    expandName params name =
      if v.items = [] then .error (.emptyList name) else .ok (marks v.items.length, v.items) := by
  rw [expandName, h]
  cases v with
  | arr items => cases items <;> simp [Json.items]
  | _ => rfl

/-- What the placeholder of a parameter is replaced by: a question mark for each value. A placeholder
without a name is none and stays. -/
def boundText (params : FieldMap Json) (name : String) : String :=
  match params.get? name with
  | none => placeholder name
  | some v =>
    if name = "" ∨ v.items = [] then placeholder name else String.ofList (marks v.items.length)

/-- A placeholder is not replaced by nothing. -/
theorem boundText_ne_nil (params : FieldMap Json) (name : String) :
    (boundText params name).toList ≠ [] := by
  unfold boundText
  split
  · simp [placeholder]
  · rename_i v _
    split
    · simp [placeholder]
    · rename_i h
      obtain ⟨item, rest, hitems⟩ := List.exists_cons_of_ne_nil (not_or.mp h).2
      cases rest <;> simp [hitems, marks, List.replicate_succ, List.intercalate_cons_cons]

/-! ## Expansion of templates -/

section

variable (params : FieldMap Json) (naming : Naming)

/-- Segments without a placeholder are not changed. -/
theorem Segment.expandChars_of_parameter?_eq_none {s : Segment} (hs : s.parameter? = none)
    (hcolumn : ∀ f ∈ s.field?, Inert (naming.column f).toList) :
    expandChars params (s.written naming SqlFilter.placeholder).toList =
      .ok ((s.written naming (boundText params)).toList, []) := by
  have hsame : s.written naming SqlFilter.placeholder = s.written naming (boundText params) := by
    cases s with
    | null expected => cases expected <;> rfl
    | placeholder name => simp [parameter?] at hs
    | _ => rfl
  rw [← hsame]
  cases s with
  | opening | closing | not => exact expandChars_of_noColon params (by simp [written])
  | link c =>
    refine expandChars_of_noColon params ?_
    cases c <;> simp [written, Conjunction.separator, Conjunction.keyword]
  | column field => exact expandChars_of_inert params (hcolumn field rfl)
  | operator o =>
    refine expandChars_of_noColon params ?_
    cases o <;> simp [written, Operator.token]
  | null expected =>
    refine expandChars_of_noColon params ?_
    cases expected <;> simp [written]
  | placeholder name => simp [parameter?] at hs

/-- A placeholder is replaced by the question marks of its parameter. One without a name stays. -/
theorem expandChars_placeholder_of_get? {name : String} {v : Json} (hplain : IsPlain name)
    (h : params.get? name = some v) :
    expandChars params (placeholder name).toList =
      if name ≠ "" ∧ v.items = [] then .error (.emptyList name)
      else .ok ((boundText params name).toList, if name = "" then [] else v.items) := by
  rw [boundText, h]
  by_cases hname : name = ""
  · subst hname
    simpa [placeholder] using expandChars_colon params
  · have hchars : (placeholder name).toList = ':' :: name.toList := by simp [placeholder]
    have hne : name.toList ≠ [] := by simpa using hname
    rw [hchars, expandChars_placeholder params hne hplain.isDelimiter_eq_false, String.ofList_toList,
      expandName_of_get? h]
    by_cases hitems : v.items = [] <;> simp [hname, hitems]

end

/-- What a text with given bindings expands to. If one of them has a name and binds nothing, the first
such one is the error; otherwise it is the text with its question marks and the values of all bindings
with a name. -/
def Expansion.ofBindings (text : List Char) (bindings : List (String × Json)) : Expansion :=
  match bindings.find? fun b => b.1 ≠ "" && b.2.items.isEmpty with
  | some b => .error (.emptyList b.1)
  | none => .ok (text, (bindings.filter fun b => b.1 ≠ "").flatMap fun b => b.2.items)

/-- A text that binds nothing, before a text with bindings. -/
theorem Expansion.ok_append_ofBindings (head text : List Char) (bindings : List (String × Json)) :
    append (.ok (head, [])) (ofBindings text bindings) = ofBindings (head ++ text) bindings := by
  unfold ofBindings
  split <;> rfl

/-- A text with one binding, before a text with others. -/
theorem Expansion.append_ofBindings (head text : List Char) (b : String × Json)
    (bindings : List (String × Json)) :
    append (if b.1 ≠ "" ∧ b.2.items = [] then .error (.emptyList b.1)
        else .ok (head, if b.1 = "" then [] else b.2.items)) (ofBindings text bindings) =
      ofBindings (head ++ text) (b :: bindings) := by
  by_cases hname : b.1 = ""
  · have hcons : ofBindings (head ++ text) (b :: bindings) = ofBindings (head ++ text) bindings := by
      simp [ofBindings, hname]
    rw [hcons, ← ok_append_ofBindings, if_neg fun h => h.1 hname, if_pos hname]
  · by_cases hitems : b.2.items = []
    · simp [ofBindings, append, hname, hitems]
    · have hitems' : b.2.items.isEmpty = false := by simpa using hitems
      rw [if_neg fun h => hitems h.2, if_neg hname, ofBindings, ofBindings, List.find?_cons,
        List.filter_cons, if_pos (by simpa using hname), List.flatMap_cons, hitems', Bool.and_false]
      generalize bindings.find? (fun b => b.1 ≠ "" && b.2.items.isEmpty) = found
      cases found <;> rfl

/-- **The expansion of a template** whose placeholders are those of given bindings, in order.

**Proof sketch.** A separated template is expanded segment by segment (`Separated.map_written`).
Then induction on the segments: one without a parameter stays as it is and binds nothing, and a
placeholder takes the next binding, whose value it has in the parameters. -/
theorem Separated.expandChars_chars (params : FieldMap Json) (naming : Naming) {t : Template}
    (h : Separated t) (hcolumn : ∀ f ∈ t.fields, Inert (naming.column f).toList)
    {bindings : List (String × Json)} (hparameters : t.parameters = bindings.map Prod.fst)
    (hplain : ∀ b ∈ bindings, IsPlain b.1) (hbound : ∀ b ∈ bindings, params.get? b.1 = some b.2) :
    expandChars params (t.chars naming) =
      Expansion.ofBindings (t.written naming (boundText params)) bindings := by
  rw [Template.chars, h.map_written (expandChars_nil params) (expandChars_append params) naming]
  clear h
  induction t generalizing bindings with
  | nil =>
    obtain rfl : bindings = [] := by simpa [Template.parameters] using hparameters.symm
    rfl
  | cons s t ih =>
    have hfields : ∀ f ∈ s.field?, Inert (naming.column f).toList := fun f hf =>
      hcolumn f (List.mem_filterMap.mpr ⟨s, List.mem_cons_self, hf⟩)
    have hrest : ∀ f ∈ Template.fields t, Inert (naming.column f).toList := fun f hf =>
      hcolumn f ((List.sublist_cons_self s t).filterMap _ |>.subset hf)
    rw [List.foldr_cons]
    cases hs : s.parameter? with
    | none =>
      rw [Template.parameters, List.filterMap_cons_none hs] at hparameters
      rw [ih hrest hparameters hplain hbound,
        s.expandChars_of_parameter?_eq_none params naming hs hfields, Template.written_cons]
      exact Expansion.ok_append_ofBindings ..
    | some name =>
      obtain rfl : s = .placeholder name := by
        cases s <;> simp [Segment.parameter?] at hs
        rw [hs]
      cases bindings with
      | nil => simp [Template.parameters, Segment.parameter?] at hparameters
      | cons b bindings =>
        obtain ⟨rfl, hothers⟩ : name = b.1 ∧ Template.parameters t = bindings.map Prod.fst := by
          simpa [Template.parameters, Segment.parameter?] using hparameters
        have hhead := expandChars_placeholder_of_get? params (hplain b List.mem_cons_self)
          (hbound b List.mem_cons_self)
        have htail := ih hrest hothers (fun b' hb' => hplain b' (List.mem_cons_of_mem _ hb'))
          fun b' hb' => hbound b' (List.mem_cons_of_mem _ hb')
        rw [Segment.written, hhead, htail, Template.written_cons, Segment.written]
        exact Expansion.append_ofBindings ..

/-! ## Expansion of statements -/

/-- Expansion on texts is that on their characters. -/
theorem expand_eq_map (params : FieldMap Json) (sql : String) : expand params sql =
    (expandChars params sql.toList).map fun r => ⟨String.ofList r.1, r.2⟩ := by
  rw [expand]
  cases expandChars params sql.toList <;> rfl

namespace Selection

/-- The same selection with another condition. -/
def withCondition (s : Selection) (condition : String) : Selection :=
  { s with compiled := { s.compiled with condition := condition } }

/-- The columns that a page has. -/
def columns (s : Selection) : String := "SELECT " ++ s.quotedAlias ++ ".* "

/-- The statement for a page up to the limits of the page. -/
def pageHead (s : Selection) : String := s.columns ++ s.source ++ s.orderBy

@[simp] theorem condition_withCondition (s : Selection) (condition : String) :
    (s.withCondition condition).compiled.condition = condition := rfl

@[simp] theorem columns_withCondition (s : Selection) (condition : String) :
    (s.withCondition condition).columns = s.columns := rfl

@[simp] theorem orderBy_withCondition (s : Selection) (condition : String) :
    (s.withCondition condition).orderBy = s.orderBy := rfl

/-- No name in a selection has a colon. -/
structure Colonless (s : Selection) : Prop where
  table : ':' ∉ (s.naming.quote.quoted s.table).toList
  quotedAlias : ':' ∉ s.quotedAlias.toList
  order : ∀ c ∈ s.compiled.order, ':' ∉ c.column.toList

/-- An expansion of the condition has a text, unless the condition has none. -/
def KeepsText (params : FieldMap Json) (s : Selection) : Prop :=
  ∀ r, expandChars params s.compiled.condition.toList = .ok r → s.compiled.condition ≠ "" → r.1 ≠ []

section

variable (params : FieldMap Json) {s : Selection}

/-- Joined texts have no colon if neither the parts nor what is between them has one. -/
private theorem colon_notMem_intercalate {separator : List Char} {parts : List (List Char)}
    (hseparator : ':' ∉ separator) (hparts : ∀ p ∈ parts, ':' ∉ p) :
    ':' ∉ separator.intercalate parts := by
  induction parts with
  | nil => simp
  | cons p parts ih =>
    cases parts with
    | nil => simpa using hparts p List.mem_cons_self
    | cons q parts =>
      rw [List.intercalate_cons_cons, List.mem_append, List.mem_append, not_or, not_or]
      exact ⟨⟨hparts p List.mem_cons_self, hseparator⟩,
        ih fun q hq => hparts q (List.mem_cons_of_mem _ hq)⟩

/-- The characters of three joined texts. -/
private theorem toList_append_three (a b c : String) :
    (a ++ b ++ c).toList = a.toList ++ (b.toList ++ c.toList) := by
  simp

/-- The characters of five joined texts. -/
private theorem toList_append_five (a b c d e : String) : (a ++ b ++ c ++ d ++ e).toList =
    a.toList ++ (b.toList ++ (c.toList ++ (d.toList ++ e.toList))) := by
  simp

/-- The sort columns have no colon. -/
theorem Colonless.orderBy (h : s.Colonless) : ':' ∉ s.orderBy.toList := by
  have hsort : ∀ c ∈ s.compiled.order, ':' ∉ (sortText c).toList := by
    intro c hc
    have hcolumn := h.order c hc
    cases hascending : c.ascending <;> simp [sortText, hascending, hcolumn]
  rw [Selection.orderBy]
  split
  · simp
  · rw [String.toList_append, List.mem_append, not_or, String.toList_intercalate, List.map_map]
    refine ⟨by simp, colon_notMem_intercalate (by simp) fun p hp => ?_⟩
    obtain ⟨c, hc, rfl⟩ := List.mem_map.mp hp
    exact hsort c hc

/-- The table with its alias. -/
def head (s : Selection) : String :=
  "FROM " ++ s.naming.quote.quoted s.table ++ " AS " ++ s.quotedAlias

/-- The table with its alias has no colon. -/
theorem Colonless.head (h : s.Colonless) : ':' ∉ s.head.toList := by
  simp [Selection.head, h.table, h.quotedAlias]

/-- The source without a condition. -/
theorem source_of_eq (hempty : s.compiled.condition = "") : s.source = s.head := by
  simp [source, hempty, Selection.head]

/-- The source with a condition. -/
theorem toList_source_of_ne (hne : s.compiled.condition ≠ "") : s.source.toList =
    s.head.toList ++ (" WHERE ".toList ++ s.compiled.condition.toList) := by
  have htext : s.source = s.head ++ " WHERE " ++ s.compiled.condition := by
    simp [source, hne, Selection.head, String.append_assoc]
  rw [htext]
  exact toList_append_three ..

/-- **The source of a selection** is expanded by expanding its condition.

**Proof sketch.** The head of a statement has no colon, and neither has `WHERE`, so both stay as
they are and bind nothing. Where a condition follows, no placeholder reaches over the seam before
it. By hypothesis an expanded condition is empty only if the condition is, so `WHERE` stands in both
sources or in none. -/
theorem expandChars_source (h : s.Colonless) (hne : KeepsText params s) :
    expandChars params s.source.toList =
      (expandChars params s.compiled.condition.toList).map fun r =>
        ((s.withCondition (String.ofList r.1)).source.toList, r.2) := by
  by_cases hempty : s.compiled.condition = ""
  · have hsource : (s.withCondition "").source = s.head := source_of_eq rfl
    rw [source_of_eq hempty, expandChars_of_noColon params h.head, hempty, String.toList_empty,
      expandChars_nil, ← hsource]
    rfl
  · have hhead := Seam.of_head? s.head.toList
      (b := " WHERE ".toList ++ s.compiled.condition.toList) (by simp; decide)
    have hwhere := Seam.of_getLast? (a := " WHERE ".toList) (by decide) s.compiled.condition.toList
    rw [toList_source_of_ne hempty, expandChars_before params hhead h.head,
      expandChars_before params hwhere (by decide)]
    cases hx : expandChars params s.compiled.condition.toList with
    | error e => rfl
    | ok r =>
      have hr : (s.withCondition (String.ofList r.1)).compiled.condition ≠ "" := by
        simpa [withCondition] using hne r hx hempty
      have hsource : (s.withCondition (String.ofList r.1)).source.toList =
          s.head.toList ++ (" WHERE ".toList ++ r.1) :=
        (toList_source_of_ne hr).trans
          (congrArg (fun cs => s.head.toList ++ (" WHERE ".toList ++ cs)) String.toList_ofList)
      exact congrArg (fun cs => Except.ok (cs, r.2)) hsource.symm

/-- The characters of the statement that counts. -/
theorem toList_countText (s : Selection) :
    s.countText.toList = "SELECT COUNT(*) ".toList ++ s.source.toList :=
  String.toList_append ..

/-- The characters of the statement that asks for a row. -/
theorem toList_existText (s : Selection) : s.existText.toList =
    "SELECT EXISTS(SELECT 1 ".toList ++ (s.source.toList ++ ")".toList) :=
  toList_append_three ..

/-- The statement that counts is expanded by expanding its condition. -/
theorem expandChars_countText (h : s.Colonless) (hne : KeepsText params s) :
    expandChars params s.countText.toList =
      (expandChars params s.compiled.condition.toList).map fun r =>
        ((s.withCondition (String.ofList r.1)).countText.toList, r.2) := by
  have hseam := Seam.of_getLast? (a := "SELECT COUNT(*) ".toList) (by decide) s.source.toList
  rw [toList_countText, expandChars_before params hseam (by decide), expandChars_source params h hne]
  cases expandChars params s.compiled.condition.toList with
  | error e => simp only [Except.map]
  | ok r => exact congrArg (fun cs => Except.ok (cs, r.2)) (toList_countText _).symm

/-- The statement that asks for a row is expanded by expanding its condition. -/
theorem expandChars_existText (h : s.Colonless) (hne : KeepsText params s) :
    expandChars params s.existText.toList =
      (expandChars params s.compiled.condition.toList).map fun r =>
        ((s.withCondition (String.ofList r.1)).existText.toList, r.2) := by
  have hopening := Seam.of_getLast? (a := "SELECT EXISTS(SELECT 1 ".toList) (by decide)
    (s.source.toList ++ ")".toList)
  have hclosing := Seam.of_head? s.source.toList (b := ")".toList) (by decide)
  rw [toList_existText, expandChars_between params hopening hclosing (by decide) (by decide),
    expandChars_source params h hne]
  cases expandChars params s.compiled.condition.toList with
  | error e => simp only [Except.map]
  | ok r => exact congrArg (fun cs => Except.ok (cs, r.2)) (toList_existText _).symm

/-- The sort columns begin with a blank, if there are any. -/
theorem seam_orderBy (a : List Char) : Seam a s.orderBy.toList := by
  rw [orderBy]
  split
  · exact Seam.last a
  · refine Seam.of_head? a ?_
    rw [String.toList_append]
    rfl

/-- The statement for a page, up to its limits, is expanded by expanding its condition. -/
theorem expandChars_pageHead (h : s.Colonless) (hne : KeepsText params s) :
    expandChars params s.pageHead.toList =
      (expandChars params s.compiled.condition.toList).map fun r =>
        ((s.withCondition (String.ofList r.1)).pageHead.toList, r.2) := by
  have htext (s : Selection) : s.pageHead.toList =
      s.columns.toList ++ (s.source.toList ++ s.orderBy.toList) :=
    toList_append_three ..
  have hcolumns : Seam s.columns.toList (s.source.toList ++ s.orderBy.toList) := by
    rw [columns, String.toList_append]
    exact Seam.of_getLast?_append (by decide) _
  have hcolon : ':' ∉ s.columns.toList := by
    simp [columns, h.quotedAlias]
  rw [htext, expandChars_between params hcolumns (seam_orderBy _) hcolon h.orderBy,
    expandChars_source params h hne]
  cases expandChars params s.compiled.condition.toList with
  | error e => simp only [Except.map]
  | ok r => simp only [Except.map, htext, columns_withCondition, orderBy_withCondition]

/-- A placeholder with a name is replaced by a question mark, if it is bound to a single value. -/
theorem expandChars_placeholder_single {name : String} {v : Json} (hplain : IsPlain name)
    (hname : name ≠ "") (hv : v.items = [v]) (h : params.get? name = some v) :
    expandChars params (placeholder name).toList = .ok (['?'], [v]) := by
  rw [expandChars_placeholder_of_get? params hplain h, boundText, h]
  simp [hname, hv, marks]

/-- The limits of a page are bound to single values. -/
theorem expandChars_limits {take skip : Int}
    (htake : params.get? takeName = some (Json.ofInt take))
    (hskip : params.get? skipName = some (Json.ofInt skip)) :
    expandChars params ((placeholder takeName).toList ++
        (" OFFSET ".toList ++ (placeholder skipName).toList)) =
      .ok ("? OFFSET ?".toList, [Json.ofInt take, Json.ofInt skip]) := by
  have hbefore := Seam.of_head? (placeholder takeName).toList
    (b := " OFFSET ".toList ++ (placeholder skipName).toList) (by simp; decide)
  have hafter := Seam.of_getLast? (a := " OFFSET ".toList) (by decide) (placeholder skipName).toList
  rw [expandChars_append params hbefore, expandChars_before params hafter (by decide),
    expandChars_placeholder_single params (by decide) (by decide) rfl htake,
    expandChars_placeholder_single params (by decide) (by decide) rfl hskip]
  rfl

/-- **The limits of a page are expanded apart from the rest of its statement**, whatever names the
rest has: a blank stands before them. -/
theorem expandChars_pageText_of_limits (s : Selection) {take skip : Int}
    (htake : params.get? takeName = some (Json.ofInt take))
    (hskip : params.get? skipName = some (Json.ofInt skip)) :
    expandChars params s.pageText.toList =
      (expandChars params s.pageHead.toList).map fun r =>
        (r.1 ++ " LIMIT ? OFFSET ?".toList, r.2 ++ [Json.ofInt take, Json.ofInt skip]) := by
  have hpage : s.pageText = s.pageHead ++ " LIMIT " ++ placeholder takeName ++ " OFFSET " ++
      placeholder skipName := rfl
  have htext : s.pageText.toList = s.pageHead.toList ++ (" LIMIT ".toList ++
      ((placeholder takeName).toList ++ (" OFFSET ".toList ++ (placeholder skipName).toList))) :=
    (congrArg String.toList hpage).trans (toList_append_five ..)
  have hhead := Seam.of_head? s.pageHead.toList (b := " LIMIT ".toList ++
    ((placeholder takeName).toList ++ (" OFFSET ".toList ++ (placeholder skipName).toList)))
    (by simp; decide)
  have hlimit := Seam.of_getLast? (a := " LIMIT ".toList) (by decide)
    ((placeholder takeName).toList ++ (" OFFSET ".toList ++ (placeholder skipName).toList))
  rw [htext, expandChars_append params hhead, expandChars_before params hlimit (by decide),
    expandChars_limits params htake hskip]
  exact Expansion.append_ok ..

/-- The statement for a page is expanded by expanding its condition and binding the limits of the
page. -/
theorem expandChars_pageText (h : s.Colonless) (hne : KeepsText params s) {take skip : Int}
    (htake : params.get? takeName = some (Json.ofInt take))
    (hskip : params.get? skipName = some (Json.ofInt skip)) :
    expandChars params s.pageText.toList =
      (expandChars params s.compiled.condition.toList).map fun r =>
        (((s.withCondition (String.ofList r.1)).pageHead ++ " LIMIT ? OFFSET ?").toList,
          r.2 ++ [Json.ofInt take, Json.ofInt skip]) := by
  rw [expandChars_pageText_of_limits params s htake hskip, expandChars_pageHead params h hne]
  cases expandChars params s.compiled.condition.toList with
  | error e => rfl
  | ok r => simp only [Except.map, String.toList_append]

/-- The parameters of a page hold its resolved limits. -/
theorem get?_pageParams_limits (s : Selection) (paging : Paging) :
    (s.pageParams paging).get? takeName =
        some (Json.ofInt (paging.resolveTake s.compiled.take)) ∧
      (s.pageParams paging).get? skipName =
        some (Json.ofInt (Paging.resolveSkip s.compiled.skip)) := by
  constructor
  · rw [pageParams, FieldMap.get?_insert, if_neg (by decide), FieldMap.get?_insert, if_pos rfl]
  · rw [pageParams, FieldMap.get?_insert, if_pos rfl]

/-- The statement for a page, with its own parameters, binds the resolved limits last. -/
theorem expandChars_pageText_pageParams (paging : Paging) (h : s.Colonless)
    (hne : KeepsText (s.pageParams paging) s) :
    expandChars (s.pageParams paging) s.pageText.toList =
      (expandChars (s.pageParams paging) s.compiled.condition.toList).map fun r =>
        (((s.withCondition (String.ofList r.1)).pageHead ++ " LIMIT ? OFFSET ?").toList,
          r.2 ++ [Json.ofInt (paging.resolveTake s.compiled.take),
            Json.ofInt (Paging.resolveSkip s.compiled.skip)]) :=
  expandChars_pageText _ h hne (s.get?_pageParams_limits paging).1
    (s.get?_pageParams_limits paging).2

end

end Selection

end SqlFilter
