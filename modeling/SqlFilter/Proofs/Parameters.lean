import Mathlib.Data.List.Basic
import SqlFilter.Compiled
import SqlFilter.Proofs.Numbering

set_option relaxedAutoImplicit false
set_option autoImplicit false

/-!
# What a compiled query binds

The parameters of a compiled query are filled in one after the other, first from the keys and then
from the filter, and a later value replaces an earlier one of the same name. Since no two operands of
a filter share a name, each operand is found under its own; and so is each key, unless the filter
generates its name too.

## Main definitions

* `Keys.bindings` — the parameters of keys.

## Main results

* `FieldMap.get?_insertAll_of_mem` — what is found after entries of distinct names went in.
* `FieldMap.entries_insertAll_of_nodup`, `FieldMap.size_insertAll_eq_iff` — entries of new names are
  appended, and only such entries make the map larger by one each.
* `Query.get?_params_of_mem_bindings`, `Query.get?_params_of_mem_keys` — what a compiled query binds
  to the parameters of its filter and of its keys.
-/

namespace SqlFilter

/-! ## Inserting entries one after the other -/

namespace FieldMap

variable {α : Type}

/-- Entries of other names do not change what is found. -/
theorem get?_insertAll_of_notMem (m : FieldMap α) {entries : List (String × α)} {name : String}
    (h : name ∉ entries.map Prod.fst) : (m.insertAll entries).get? name = m.get? name := by
  induction entries generalizing m with
  | nil => rfl
  | cons e rest ih =>
    rw [List.map_cons, List.mem_cons, not_or] at h
    have hrest : (m.insertAll (e :: rest)).get? name = (m.insert e.1 e.2).get? name := ih _ h.2
    rw [hrest, get?_insert, if_neg (Ne.symm h.1)]

/-- An entry is found if no other one has its name. -/
theorem get?_insertAll_of_mem (m : FieldMap α) {entries : List (String × α)}
    (hnodup : (entries.map Prod.fst).Nodup) {name : String} {value : α}
    (h : (name, value) ∈ entries) : (m.insertAll entries).get? name = some value := by
  induction entries generalizing m with
  | nil => simp at h
  | cons e rest ih =>
    obtain ⟨hne, hrest⟩ := List.nodup_cons.mp hnodup
    rcases List.mem_cons.mp h with rfl | h
    · have hget : (m.insertAll ((name, value) :: rest)).get? name =
          (m.insert name value).get? name := get?_insertAll_of_notMem _ hne
      rw [hget, get?_insert, if_pos rfl]
    · exact ih _ hrest h

/-- The fields after an insertion are those before it and the new one, at the end if it is new. -/
theorem fields_insert (m : FieldMap α) (field : String) (value : α) :
    (m.insert field value).fields =
      if field ∈ m.fields then m.fields else m.fields ++ [field] :=
  map_fst_insertEntry field value m.entries

/-- An entry of a new name goes to the end. -/
theorem insertEntry_of_notMem {field : String} (value : α) {entries : List (String × α)}
    (h : field ∉ entries.map Prod.fst) :
    insertEntry field value entries = entries ++ [(field, value)] := by
  induction entries with
  | nil => rfl
  | cons e rest ih =>
    rw [List.map_cons, List.mem_cons, not_or] at h
    rw [insertEntry, if_neg (Ne.symm h.1), ih h.2, List.cons_append]

/-- **Entries of new and distinct names are appended.** -/
theorem entries_insertAll_of_nodup (m : FieldMap α) {entries : List (String × α)}
    (h : (m.fields ++ entries.map Prod.fst).Nodup) :
    (m.insertAll entries).entries = m.entries ++ entries := by
  induction entries generalizing m with
  | nil => exact (List.append_nil _).symm
  | cons e rest ih =>
    have hcons : m.insertAll (e :: rest) = (m.insert e.1 e.2).insertAll rest := rfl
    have hfresh : e.1 ∉ m.fields := by
      intro hmem
      exact (List.nodup_append.mp h).2.2 e.1 hmem e.1 List.mem_cons_self rfl
    have hfields : (m.insert e.1 e.2).fields = m.fields ++ [e.1] := by
      rw [fields_insert, if_neg hfresh]
    have hrest : ((m.insert e.1 e.2).fields ++ rest.map Prod.fst).Nodup := by
      rw [hfields, List.append_assoc]
      exact h
    rw [hcons, ih _ hrest, entries_insert, insertEntry_of_notMem e.2 hfresh, List.append_assoc]
    rfl

/-- After entries of distinct names, the fields are those before and the names that are new. -/
theorem fields_insertAll (m : FieldMap α) {entries : List (String × α)}
    (h : (entries.map Prod.fst).Nodup) : (m.insertAll entries).fields =
      m.fields ++ (entries.map Prod.fst).filter fun f => f ∉ m.fields := by
  induction entries generalizing m with
  | nil => exact (List.append_nil _).symm
  | cons e rest ih =>
    obtain ⟨hnew, hrest⟩ := List.nodup_cons.mp h
    have hcons : m.insertAll (e :: rest) = (m.insert e.1 e.2).insertAll rest := rfl
    rw [hcons, ih _ hrest, fields_insert, List.map_cons, List.filter_cons]
    by_cases hmem : e.1 ∈ m.fields
    · simp [hmem]
    · have hsame : (rest.map Prod.fst).filter (fun f => f ∉ m.fields ++ [e.1]) =
          (rest.map Prod.fst).filter fun f => f ∉ m.fields := by
        refine List.filter_congr fun f hf => ?_
        have hne : f ≠ e.1 := fun heq => hnew (heq ▸ hf)
        simp [hne]
      simp only [if_neg hmem, hsame]
      simp [hmem]

/-- **Entries of distinct names are one more field each exactly if all of them are new.** -/
theorem size_insertAll_eq_iff (m : FieldMap α) {entries : List (String × α)}
    (h : (entries.map Prod.fst).Nodup) : (m.insertAll entries).size = m.size + entries.length ↔
      ∀ f ∈ m.fields, f ∉ entries.map Prod.fst := by
  have hsize (m : FieldMap α) : m.size = m.fields.length := (List.length_map Prod.fst).symm
  rw [hsize, hsize, fields_insertAll m h, List.length_append, Nat.add_left_cancel_iff,
    ← List.length_map Prod.fst, List.length_filter_eq_length_iff]
  simp only [decide_eq_true_eq]
  exact ⟨fun hnew f hf hmem => hnew f hmem hf, fun hnew f hmem hf => hnew f hf hmem⟩

end FieldMap

/-! ## Parameters of compiled queries -/

/-- The parameters of keys: each key under its own name. -/
def Keys.bindings (keys : Keys) : List (String × Json) :=
  keys.entries.map fun e => (e.1, e.2.toJson)

/-- The names of the parameters of keys are the names of the keys. -/
theorem Keys.map_fst_bindings (keys : Keys) : keys.bindings.map Prod.fst = keys.fields := by
  simp [bindings, FieldMap.fields, Function.comp_def]

/-- Keys have distinct names, so each of them is a parameter of its own. -/
theorem Keys.entries_insertAll_bindings (keys : Keys) :
    (FieldMap.empty.insertAll keys.bindings).entries = keys.bindings :=
  FieldMap.entries_insertAll_of_nodup _ (keys.map_fst_bindings ▸ keys.nodup)

/-- The parameters of keys are named like the keys. -/
theorem Keys.fields_insertAll_bindings (keys : Keys) :
    (FieldMap.empty.insertAll keys.bindings).fields = keys.fields := by
  rw [FieldMap.fields, keys.entries_insertAll_bindings, keys.map_fst_bindings]

namespace Query

variable (options : CompilerOptions) (keys : Keys) (q : Query)

/-- The parameters of a compiled query: those of the keys and then those of the filter. -/
theorem params_compile : (q.compile options keys).params =
    (FieldMap.empty.insertAll keys.bindings).insertAll q.filter.bindings := by
  have hbindings : (q.filter.compile .and 0).chain.bindings = q.filter.bindings := by
    rw [Chain.bindings, Expr.conditions_compile, Expr.bindings]
  rw [← hbindings]
  rfl

/-- **The parameters are those of the keys and then those of the filter**, if no key is named like a
parameter of the filter. -/
theorem entries_params_of_fresh (hfresh : ∀ k ∈ keys.fields, k ∉ q.filter.parameters) :
    (q.compile options keys).params.entries = keys.bindings ++ q.filter.bindings := by
  have hnodup : ((FieldMap.empty.insertAll keys.bindings).fields ++
      q.filter.bindings.map Prod.fst).Nodup := by
    rw [keys.fields_insertAll_bindings]
    refine List.nodup_append.mpr ⟨keys.nodup, q.filter.nodup_parameters, ?_⟩
    rintro k hk _ hp rfl
    exact hfresh k hk hp
  rw [params_compile, FieldMap.entries_insertAll_of_nodup _ hnodup,
    keys.entries_insertAll_bindings]

/-- **Each operand of the filter is bound to its own parameter.** -/
theorem get?_params_of_mem_bindings {name : String} {operand : Json}
    (h : (name, operand) ∈ q.filter.bindings) :
    (q.compile options keys).params.get? name = some operand := by
  rw [params_compile]
  exact FieldMap.get?_insertAll_of_mem _ q.filter.nodup_parameters h

/-- **Each key is bound to its own parameter**, if the filter has no parameter of that name. -/
theorem get?_params_of_mem_keys {name : String} {value : Json} (h : (name, value) ∈ keys.bindings)
    (hfresh : name ∉ q.filter.parameters) :
    (q.compile options keys).params.get? name = some value := by
  rw [params_compile, FieldMap.get?_insertAll_of_notMem _ hfresh]
  exact FieldMap.get?_insertAll_of_mem _ (keys.map_fst_bindings ▸ keys.nodup) h

end Query

end SqlFilter
