import Mathlib.Data.List.Forall2
import Mathlib.Data.List.Induction
import SqlFilter.Proofs.Parameters

set_option relaxedAutoImplicit false
set_option autoImplicit false

/-!
# Field maps and their histories

A field map is made by inserting entries: one at a time, a whole list of them, or the members of an
object as they are decoded. What it holds afterwards is told by the history of these entries: every
field that ever came, in the order in which the fields first came, each with the value that came
last. The parameters of a statement are such a map, too.

## Design

What came last is said by cutting the history: behind the entry, no other one has its field. So the
law speaks of a history as a plain list, and of a map only through the operations that read it.

## Main definitions

* `IsLatest` — an entry of a history that none of the later ones replaces.
* `FieldMap.Keeps` — what a map is after a history.
* `Json.Decoder.AreEntries` — the members of an object, decoded one by one.

## Main results

* `FieldMap.Keeps.insert`, `FieldMap.Keeps.insertAll` — the history after one more entry, and after
  many.
* `FieldMap.Keeps.unique` — at most one map keeps a history.
* `Json.Decoder.fieldMap_eq_some_iff`, `Json.Decoder.fieldMap_eq_none_iff` — which objects are
  decoded, and to which map.
* `FieldMap.keeps_every_history` — all of this for every way in which maps come about.
-/

namespace SqlFilter

variable {α : Type}

/-! ## What came last -/

/-- A field was given a value, and no other value after that. -/
def IsLatest (history : List (String × α)) (field : String) (value : α) : Prop :=
  ∃ earlier later, history = earlier ++ (field, value) :: later ∧ field ∉ later.map Prod.fst

/-- In the empty history, nothing came. -/
theorem not_isLatest_nil (field : String) (value : α) : ¬ IsLatest [] field value := by
  rintro ⟨earlier, later, h, -⟩
  exact List.append_ne_nil_of_right_ne_nil earlier (List.cons_ne_nil _ later) h.symm

/-- **After one more entry**, its value is the latest one of its field; for every other field nothing
changes.

**Proof sketch.** An entry after which the field does not occur is either the last one of all or an
entry of the history. In the first case field and value are those of the new entry. In the second
the new entry is one of the later ones, so that its field is another one. -/
theorem isLatest_concat_iff (history : List (String × α)) (entry : String × α) (field : String)
    (value : α) : IsLatest (history ++ [entry]) field value ↔
      if entry.1 = field then entry.2 = value else IsLatest history field value := by
  obtain ⟨f, v⟩ := entry
  constructor
  · rintro ⟨earlier, later, h, hlater⟩
    rcases List.eq_nil_or_concat later with rfl | ⟨later, last, rfl⟩
    · obtain ⟨-, hlast⟩ := List.append_inj' h rfl
      obtain ⟨rfl, rfl⟩ : f = field ∧ v = value := by simpa using hlast
      simp
    · -- the last entry of the history is the one that was added
      rw [List.concat_eq_append, ← List.cons_append, ← List.append_assoc] at h
      obtain ⟨rfl, hlast⟩ := List.append_inj' h rfl
      obtain rfl : (f, v) = last := by simpa using hlast
      simp only [List.concat_eq_append, List.map_append, List.mem_append, not_or] at hlater
      have hne : f ≠ field := fun heq => hlater.2 (by simp [heq])
      rw [if_neg hne]
      exact ⟨earlier, later, rfl, hlater.1⟩
  · intro h
    split at h
    · rename_i hfield
      subst hfield
      subst h
      exact ⟨history, [], rfl, by simp⟩
    · rename_i hne
      obtain ⟨earlier, later, rfl, hlater⟩ := h
      refine ⟨earlier, later ++ [(f, v)], by simp, ?_⟩
      simpa [hlater] using Ne.symm hne

/-- The fields that came are those that have a latest value. -/
theorem exists_isLatest_iff (history : List (String × α)) (field : String) :
    (∃ value, IsLatest history field value) ↔ field ∈ history.map Prod.fst := by
  induction history using List.reverseRecOn with
  | nil => simp [not_isLatest_nil]
  | append_singleton history entry ih =>
    simp only [isLatest_concat_iff, List.map_append, List.mem_append, ← ih]
    by_cases h : entry.1 = field
    · simp [h]
    · simp [h, Ne.symm h]

/-- The fields of a history after one more entry: a field that came before keeps its place. -/
theorem eraseDups_concat (fields : List String) (field : String) :
    (fields ++ [field]).eraseDups =
      if field ∈ fields then fields.eraseDups else fields.eraseDups ++ [field] := by
  rw [List.eraseDups_append]
  by_cases h : field ∈ fields <;> simp [List.removeAll, h, List.eraseDups_cons]

/-! ## What a map keeps -/

namespace FieldMap

/-- **What a map is after a history**, as told by every operation that reads it. -/
structure Keeps (m : FieldMap α) (history : List (String × α)) : Prop where
  /-- Each field that came is there once, in the order in which the fields first came. -/
  fields_eq : m.fields = (history.map Prod.fst).eraseDups
  /-- Each field has its latest value. -/
  mem_entries_iff : ∀ field value, (field, value) ∈ m.entries ↔ IsLatest history field value
  /-- The latest value of a field is found. -/
  get?_eq_some_iff : ∀ field value, m.get? field = some value ↔ IsLatest history field value
  /-- Nothing is found for a field that never came. -/
  get?_eq_none_iff : ∀ field, m.get? field = none ↔ field ∉ history.map Prod.fst
  contains_iff : ∀ field, m.contains field = true ↔ field ∈ history.map Prod.fst
  size_eq : m.size = (history.map Prod.fst).eraseDups.length
  isEmpty_iff : m.isEmpty = true ↔ history = []

/-- What is found in a list of entries of distinct names are the entries themselves. -/
theorem lookupEntry_eq_some_iff {entries : List (String × α)} (h : (entries.map Prod.fst).Nodup)
    (field : String) (value : α) :
    lookupEntry field entries = some value ↔ (field, value) ∈ entries := by
  induction entries with
  | nil => simp [lookupEntry]
  | cons e rest ih =>
    obtain ⟨f, v⟩ := e
    obtain ⟨hnew, hrest⟩ := List.nodup_cons.mp h
    by_cases hf : f = field
    · subst hf
      have hnot : (f, value) ∉ rest := fun hmem => hnew (List.mem_map.mpr ⟨_, hmem, rfl⟩)
      simp [lookupEntry, hnot, eq_comm]
    · simp [lookupEntry, hf, Ne.symm hf, ih hrest]

/-- The order of the fields and what is found for each of them tell everything else. -/
theorem Keeps.of_get? {m : FieldMap α} {history : List (String × α)}
    (hfields : m.fields = (history.map Prod.fst).eraseDups)
    (hget : ∀ field value, m.get? field = some value ↔ IsLatest history field value) :
    m.Keeps history where
  fields_eq := hfields
  mem_entries_iff field value := by rw [← lookupEntry_eq_some_iff m.nodup, ← hget]; rfl
  get?_eq_some_iff := hget
  get?_eq_none_iff field := by
    rw [← exists_isLatest_iff, Option.eq_none_iff_forall_ne_some]
    simp [hget]
  contains_iff field := by
    rw [← exists_isLatest_iff, contains, Option.isSome_iff_exists]
    simp [hget]
  size_eq := by rw [← hfields, fields, List.length_map, size]
  isEmpty_iff := by
    have hempty : m.isEmpty = true ↔ m.fields = [] := by simp [isEmpty, fields]
    rw [hempty, hfields]
    cases history <;> simp [List.eraseDups_cons]

/-- A field that is there already keeps its place, and takes the new value.

**Proof sketch.** Induction on the entries. Where the field is found, no later entry has it, so the
others stay as they are; before that, the entry is another one and is kept. -/
theorem entries_insert_of_mem (m : FieldMap α) {field : String} (h : field ∈ m.fields) (value : α) :
    (m.insert field value).entries =
      m.entries.map fun e => if e.1 = field then (field, value) else e := by
  obtain ⟨entries, hnodup⟩ := m
  rw [entries_insert]
  change field ∈ entries.map Prod.fst at h
  induction entries with
  | nil => simp at h
  | cons e rest ih =>
    obtain ⟨f, v⟩ := e
    obtain ⟨hnew, hrest⟩ := List.nodup_cons.mp hnodup
    by_cases hf : f = field
    · -- no other entry has the field
      have hsame : rest.map (fun e => if e.1 = field then (field, value) else e) = rest := by
        conv_rhs => rw [← List.map_id rest]
        refine List.map_congr_left fun e he => if_neg fun heq => hnew ?_
        exact List.mem_map.mpr ⟨e, he, heq.trans hf.symm⟩
      simp [insertEntry, hf, hsame]
    · have hmem : field ∈ rest.map Prod.fst := by simpa [Ne.symm hf] using h
      simp [insertEntry, hf, ih hrest hmem]

/-- The empty map keeps the empty history. -/
theorem keeps_empty : (empty : FieldMap α).Keeps [] :=
  .of_get? rfl fun field value => by simp [get?, empty, lookupEntry, not_isLatest_nil]

namespace Keeps

variable {m : FieldMap α} {history : List (String × α)}

/-- **One more entry.** -/
theorem insert (h : m.Keeps history) (field : String) (value : α) :
    (m.insert field value).Keeps (history ++ [(field, value)]) := by
  refine .of_get? ?_ fun other v => ?_
  · rw [fields_insert, h.fields_eq, List.map_append, List.map_singleton, eraseDups_concat]
    simp only [List.mem_eraseDups]
  · rw [get?_insert, isLatest_concat_iff]
    split
    · exact Option.some_inj
    · exact h.get?_eq_some_iff other v

/-- **Many more entries.** -/
theorem insertAll (h : m.Keeps history) (entries : List (String × α)) :
    (m.insertAll entries).Keeps (history ++ entries) := by
  induction entries generalizing m history with
  | nil => rwa [List.append_nil]
  | cons e rest ih =>
    have hrest := ih (h.insert e.1 e.2)
    rwa [List.append_assoc, List.singleton_append] at hrest

/-- **At most one map keeps a history.** -/
theorem unique {m' : FieldMap α} (h : m.Keeps history) (h' : m'.Keeps history) : m = m' := by
  have hmap : m.entries.map Prod.fst = m'.entries.map Prod.fst := h.fields_eq.trans h'.fields_eq.symm
  refine FieldMap.ext (List.ext_getElem (by simpa using congrArg List.length hmap) fun i hi hi' => ?_)
  have hfield := List.getElem_of_eq hmap (by simpa using hi)
  rw [List.getElem_map, List.getElem_map] at hfield
  have hmem : m'.entries[i] ∈ m.entries := by
    rw [← Prod.eta m'.entries[i], h.mem_entries_iff, ← h'.mem_entries_iff]
    exact List.getElem_mem hi'
  exact List.inj_on_of_nodup_map m.nodup (List.getElem_mem hi) hmem hfield

end Keeps

/-- **A list of entries** is kept when it is inserted from its first entry to its last. -/
theorem keeps_ofList (history : List (String × α)) : (ofList history).Keeps history :=
  keeps_empty.insertAll history

/-- **Exactly one map keeps a history**: the one that its entries are inserted into. -/
theorem keeps_iff {m : FieldMap α} {history : List (String × α)} :
    m.Keeps history ↔ m = ofList history :=
  ⟨fun h => h.unique (keeps_ofList history), fun h => h ▸ keeps_ofList history⟩

end FieldMap

/-! ## Decoded maps -/

namespace Json.Decoder

/-- Members of an object are decoded to entries, one by one: each has a proper name and a proper
value. -/
def AreEntries (item : Document → Option α) (members : List (Option String × Document))
    (history : List (String × α)) : Prop :=
  List.Forall₂ (fun member entry => member.1 = some entry.1 ∧ item member.2 = some entry.2) members
    history

/-- **Which members are inserted**: all of them, if each one is decoded. -/
theorem insertMembers_eq_some_iff {item : Document → Option α} {read m : FieldMap α}
    {members : List (Option String × Document)} :
    insertMembers item read members = some m ↔
      ∃ history, AreEntries item members history ∧ m = read.insertAll history := by
  induction members generalizing read with
  | nil => simp [insertMembers, AreEntries, FieldMap.insertAll, eq_comm]
  | cons member rest ih =>
    obtain ⟨name, d⟩ := member
    simp only [insertMembers, Option.bind_eq_bind, Option.bind_eq_some_iff, ih, AreEntries,
      List.forall₂_cons_left_iff]
    constructor
    · rintro ⟨f, rfl, v, hv, history, hhistory, rfl⟩
      exact ⟨(f, v) :: history, ⟨(f, v), history, ⟨rfl, hv⟩, hhistory, rfl⟩, rfl⟩
    · rintro ⟨_, ⟨⟨f, v⟩, history, ⟨hname, hv⟩, hhistory, rfl⟩, rfl⟩
      exact ⟨f, hname, v, hv, history, hhistory, rfl⟩

/-- **Which members are refused**: those of which one has no proper name or no proper value, even if a
later one replaces it. -/
theorem insertMembers_eq_none_iff {item : Document → Option α} {read : FieldMap α}
    {members : List (Option String × Document)} : insertMembers item read members = none ↔
      ∃ member ∈ members, member.1 = none ∨ item member.2 = none := by
  induction members generalizing read with
  | nil => simp [insertMembers]
  | cons member rest ih =>
    obtain ⟨name, d⟩ := member
    simp only [insertMembers, Option.bind_eq_bind, List.exists_mem_cons_iff]
    cases name with
    | none => simp
    | some f =>
      cases hitem : item d with
      | none => simp
      | some v => simp [ih]

/-- **Which objects are decoded**, and to which map: one that keeps the entries of all members. -/
theorem fieldMap_eq_some_iff {item : Decoder α} {budget : Nat} {m : FieldMap α}
    {members : List (Option String × Document)} :
    fieldMap item (budget + 1) (.obj members) = some m ↔
      ∃ history, AreEntries (item budget) members history ∧ m.Keeps history := by
  rw [fieldMap, insertMembers_eq_some_iff]
  simp only [FieldMap.keeps_iff, FieldMap.ofList]

/-- **Which objects are refused.** -/
theorem fieldMap_eq_none_iff {item : Decoder α} {budget : Nat}
    {members : List (Option String × Document)} :
    fieldMap item (budget + 1) (.obj members) = none ↔
      ∃ member ∈ members, member.1 = none ∨ item budget member.2 = none :=
  insertMembers_eq_none_iff

end Json.Decoder

/-! ## The law of histories -/

namespace FieldMap

open Json Json.Decoder

/-- **A field map is an ordered map, whatever its history**, which is kept

* by the map that is made of its entries, and by no other one,
* by a map into which one more entry is inserted, where a field that was there keeps its place,
* by a decoded map, with the entries of all members; an object is refused exactly if a member of it
  is no entry, also one that a later member would replace,
* by the parameters of a scope, with whatever is bound there.

**Proof sketch.** One more entry puts its field at the end if it is new, and gives it its latest
value. Everything else is a run of such steps from the empty map, which keeps the empty history. -/
theorem keeps_every_history :
    (∀ (m : FieldMap α) (history : List (String × α)), m.Keeps history ↔ m = ofList history) ∧
      (∀ (m : FieldMap α) (history : List (String × α)) (field : String) (value : α),
        m.Keeps history → (m.insert field value).Keeps (history ++ [(field, value)]) ∧
          (field ∈ m.fields → (m.insert field value).entries =
            m.entries.map fun e => if e.1 = field then (field, value) else e)) ∧
      (∀ (item : Decoder α) (budget : Nat) (members : List (Option String × Document)),
        (∀ m, fieldMap item (budget + 1) (.obj members) = some m ↔
            ∃ history, AreEntries (item budget) members history ∧ m.Keeps history) ∧
          (fieldMap item (budget + 1) (.obj members) = none ↔
            ∃ member ∈ members, member.1 = none ∨ item budget member.2 = none)) ∧
      ∀ (s : Scope) (history bindings : List (String × Json)), s.params.Keeps history →
        (s.bind bindings).params.Keeps (history ++ bindings) ∧
          ∀ name value, name ∈ s.params.fields → (s.bind [(name, value)]).params.entries =
            s.params.entries.map fun e => if e.1 = name then (name, value) else e := by
  refine ⟨fun m history => keeps_iff, ?_, ?_, ?_⟩
  · intro m history field value h
    exact ⟨h.insert field value, fun hfield => m.entries_insert_of_mem hfield value⟩
  · intro item budget members
    exact ⟨fun m => fieldMap_eq_some_iff, fieldMap_eq_none_iff⟩
  · intro s history bindings h
    exact ⟨h.insertAll bindings, fun name value hname => s.params.entries_insert_of_mem hname value⟩

/-- A field that comes three times, in a list and in an object; an object whose first member is no
number; and a parameter that is bound again. -/
theorem keeps_every_history_repeatedField :
    let history : List (String × Int) := [("a", 1), ("b", 2), ("a", 3), ("c", 4), ("a", 5)]
    let m := ofList history
    let s := (Scope.start CompilerOptions.default.naming).bind [("k", .null), ("l", .bool true)]
    m.Keeps history ∧ m.entries = [("a", 5), ("b", 2), ("c", 4)] ∧
      (m.insert "b" 6).Keeps (history ++ [("b", 6)]) ∧
      (m.insert "b" 6).entries = [("a", 5), ("b", 6), ("c", 4)] ∧
      fieldMap integer 1 (.obj (history.map fun e => (some e.1, .num (some (.int e.2))))) = some m ∧
      fieldMap integer 1 (.obj [(some "a", .bool true), (some "a", .num (some (.int 3)))]) = none ∧
      s.params.Keeps [("k", .null), ("l", .bool true)] ∧
      (s.bind [("k", .str "v")]).params.entries = [("k", .str "v"), ("l", .bool true)] := by
  intro history m s
  obtain ⟨hlist, hinsert, hdecode, hscope⟩ := keeps_every_history (α := Int)
  have hm : m.Keeps history := (hlist m history).mpr rfl
  obtain ⟨hinserted, hplace⟩ := hinsert m history "b" 6 hm
  have hentries : AreEntries (integer 0)
      (history.map fun e => (some e.1, .num (some (.int e.2)))) history := by
    simp [AreEntries, history, integer]
  have hs : s.params.Keeps [("k", .null), ("l", .bool true)] :=
    (hscope (Scope.start CompilerOptions.default.naming) [] _ keeps_empty).1
  exact ⟨hm, rfl, hinserted, hplace (by decide),
    ((hdecode integer 0 _).1 m).mpr ⟨history, hentries, hm⟩,
    (hdecode integer 0 _).2.mpr ⟨(some "a", .bool true), by simp, .inr rfl⟩, hs,
    (hscope s _ [] hs).2 "k" (.str "v") (by decide)⟩

end FieldMap

end SqlFilter
