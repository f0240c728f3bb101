import Mathlib.Data.List.TFAE
import SqlFilter.Proofs.Alternatives
import SqlFilter.Proofs.Binding

set_option relaxedAutoImplicit false
set_option autoImplicit false

/-!
# Queries that match every row

Whether there is anything to ask is decided in several places: compiling a node looks at the parts of
its children, joining keys and filter looks at their texts, and a statement looks at the text of the
condition. Here all these decisions are the same one, and it can be told from the tree: a filter says
nothing exactly if none of its nodes has a map with a field.

## Main results

* `Fragment.text_eq_empty_iff` — a fragment with a term has a text, whatever its columns are called.
* `Expr.fields_eq_nil_iff_preorder` — a tree without fields, node by node.
* `joinKeys_eq_empty_iff` — the condition of keys and filter is empty if both are.
* `Query.emptiness_agrees` — all tests of emptiness, from the fragment of a node to the statements.
-/

namespace SqlFilter

/-- **Only a fragment without terms has the empty text**, even where alias and fields are empty. -/
theorem Fragment.text_eq_empty_iff (naming : Naming) (f : Fragment) :
    f.text naming = "" ↔ f.chain = [] := by
  have hchars : f.chain.template.chars naming = (f.text naming).toList :=
    Chain.chars_template naming f.chain
  rw [← String.toList_eq_nil_iff, ← hchars, Template.chars_eq_nil_iff, Chain.template_eq_nil_iff]

namespace Expr

/-- No field is tested in a list of trees exactly if none is tested in its nodes, if this holds of each
tree. -/
private theorem fieldsAll_eq_nil_iff_of_forall (es : List Expr)
    (h : ∀ e ∈ es, e.fields = [] ↔ ∀ maps ∈ e.preorder, maps.fields = []) :
    fieldsAll es = [] ↔ ∀ maps ∈ preorderAll es, maps.fields = [] := by
  induction es with
  | nil => simp [fieldsAll, preorderAll]
  | cons e es ih =>
    rw [fieldsAll, preorderAll, List.append_eq_nil_iff, List.forall_mem_append,
      h e List.mem_cons_self, ih fun e' he' => h e' (List.mem_cons_of_mem _ he')]

/-- **No field is tested in a tree exactly if none is tested in any of its nodes.** -/
theorem fields_eq_nil_iff_preorder (e : Expr) :
    e.fields = [] ↔ ∀ maps ∈ e.preorder, maps.fields = [] := by
  induction e using inductionOn with
  | node maps not nor and or hand hnot hnor hor =>
    rw [fields_node, preorder_node]
    simp only [List.append_eq_nil_iff, List.forall_mem_cons, List.forall_mem_append,
      fieldsAll_eq_nil_iff_of_forall _ hand, fieldsAll_eq_nil_iff_of_forall _ hnot,
      fieldsAll_eq_nil_iff_of_forall _ hnor, fieldsAll_eq_nil_iff_of_forall _ hor]
    tauto

end Expr

/-- **The text of keys and filter is empty exactly if both texts are.** -/
theorem joinKeys_eq_empty_iff (naming : Naming) (keysText : String) (f : Fragment) :
    joinKeys naming keysText f = "" ↔ keysText = "" ∧ f.text naming = "" := by
  unfold joinKeys
  by_cases hkeys : keysText = ""
  · simp [hkeys]
  · by_cases hfilter : f.text naming = ""
    · simp [hkeys, hfilter]
    · simp [hkeys, hfilter, String.append_eq_empty_iff]

namespace Selection

/-- A selection has a condition unless its source is the table alone. -/
theorem source_eq_head_iff (s : Selection) : s.source = s.head ↔ s.compiled.condition = "" := by
  constructor
  · intro h
    by_contra hne
    have hlength := congrArg List.length (toList_source_of_ne hne)
    rw [h] at hlength
    simp at hlength
  · exact source_of_eq

/-- What stands between two texts is told by the whole. -/
private theorem surround_inj (before after a b : String) :
    before ++ a ++ after = before ++ b ++ after ↔ a = b := by
  rw [String.append_left_inj, String.append_right_inj]

/-- The statements of a selection show whether it has a condition. -/
theorem texts_eq_head_iff (s : Selection) :
    (s.countText = "SELECT COUNT(*) " ++ s.head ↔ s.compiled.condition = "") ∧
      (s.existText = "SELECT EXISTS(SELECT 1 " ++ s.head ++ ")" ↔ s.compiled.condition = "") ∧
      (s.pageText = s.columns ++ s.head ++ (s.orderBy ++ " LIMIT :__take OFFSET :__skip") ↔
        s.compiled.condition = "") := by
  have hlimits : " LIMIT " ++ (placeholder takeName ++ (" OFFSET " ++ placeholder skipName)) =
      " LIMIT :__take OFFSET :__skip" := by decide
  have hpage : s.pageText =
      s.columns ++ s.source ++ (s.orderBy ++ " LIMIT :__take OFFSET :__skip") := by
    unfold pageText columns
    rw [← hlimits]
    simp only [String.append_assoc]
  refine ⟨?_, ?_, ?_⟩
  · exact (String.append_right_inj "SELECT COUNT(*) ").trans s.source_eq_head_iff
  · exact (surround_inj "SELECT EXISTS(SELECT 1 " ")" _ _).trans s.source_eq_head_iff
  · rw [hpage]
    exact (surround_inj s.columns _ _ _).trans s.source_eq_head_iff

end Selection

/-- **All tests of emptiness agree**, whatever alias, style of quotation and fields are, and even where
these are empty.

- For a filter that is compiled in any scope and under any conjunction it is the same that its text is
  empty, that it has no part, that it has no term, that it counts as empty, and that no field is tested
  in its tree.
- The text of keys is empty exactly if there are no keys.
- So the condition of a query is empty exactly if there are no keys and no node of its filter has a map
  with a field; and then, and only then, its statements over any table have no condition.

**Proof sketch.** A term has a text without looking at any name, so the empty text is that of no terms. A
filter has no terms if no field is tested in it, and this can be said node by node. -/
theorem Query.emptiness_agrees :
    (∀ (s : Scope) (c : Conjunction) (e : Expr),
      let f := (s.filter c (some e)).1
      List.TFAE [f.text s.naming = "", f.parts.length = 0, f.terms = 0, f.isEmpty = true,
        e.fields = []]) ∧
    (∀ (s : Scope) (keys : Keys), (s.keys keys).1 = "" ↔ keys.isEmpty = true) ∧
    ∀ (options : CompilerOptions) (keys : Keys) (q : Query) (table : String),
      let s := q.selection options keys table
      List.TFAE [s.compiled.condition = "",
        s.countText = "SELECT COUNT(*) " ++ s.head,
        s.existText = "SELECT EXISTS(SELECT 1 " ++ s.head ++ ")",
        s.pageText = s.columns ++ s.head ++ (s.orderBy ++ " LIMIT :__take OFFSET :__skip"),
        keys.isEmpty = true ∧
          ∀ maps ∈ q.filter.preorder, ∀ o, ∀ m ∈ maps o, m.isEmpty = true] := by
  have hkeysText (naming : Naming) (keys : Keys) :
      Scope.keysText naming keys = "" ↔ keys.isEmpty = true := by
    rw [keys.keysText_eq_empty_iff, FieldMap.isEmpty, List.isEmpty_iff]
  refine ⟨fun s c e => ?_, fun s keys => hkeysText s.naming keys, fun options keys q table => ?_⟩
  · intro f
    have hchain : f.chain = [] ↔ e.fields = [] := e.chain_eq_nil_iff c s.visited
    have hparts : f.parts = [] ↔ e.fields = [] := e.parts_eq_nil_iff c s.visited
    refine List.tfae_of_forall (e.fields = []) _ ?_
    simp only [List.forall_mem_cons, List.not_mem_nil, false_imp_iff, implies_true, and_true]
    refine ⟨?_, ?_, ?_, ?_⟩
    · rw [f.text_eq_empty_iff, hchain]
    · rw [List.length_eq_zero_iff, hparts]
    · rw [Fragment.terms, List.length_eq_zero_iff, hchain]
    · rw [Fragment.isEmpty, List.isEmpty_iff, hparts]
  · intro s
    have hcondition : s.compiled.condition = "" ↔ keys.isEmpty = true ∧
        ∀ maps ∈ q.filter.preorder, ∀ o, ∀ m ∈ maps o, m.isEmpty = true := by
      have hjoined : s.compiled.condition = joinKeys options.naming
          (Scope.keysText options.naming keys) (q.filter.compile .and 0) := rfl
      rw [hjoined, joinKeys_eq_empty_iff, hkeysText, Fragment.text_eq_empty_iff,
        Expr.chain_eq_nil_iff, Expr.fields_eq_nil_iff_preorder]
      simp only [OperatorMaps.fields_eq_nil_iff_isEmpty]
    obtain ⟨hcount, hexist, hpage⟩ := s.texts_eq_head_iff
    refine List.tfae_of_forall (s.compiled.condition = "") _ ?_
    simp only [List.forall_mem_cons, List.not_mem_nil, false_imp_iff, implies_true, and_true]
    exact ⟨trivial, hcount, hexist, hpage, hcondition.symm⟩

end SqlFilter
