import SqlFilter.Proofs.Json.Texts
import SqlFilter.Proofs.Parameters
import SqlFilter.Proofs.Records

set_option relaxedAutoImplicit false
set_option autoImplicit false

/-!
# Records that are written are found again

A record is written as an object with one slot for each of its fields. A slot without a value is left
out. Since no two slots have the same name, every field finds its own value again, and those that were
left out find none.

## Design

Documents are decoded within a budget, so values carry their nesting. What the decoders are given here
are documents of values, and these fit wherever the nesting of the value does.

## Main definitions

* `Json.nesting` — how many arrays and objects of a value are open at once.
* `Json.present` — the members of the slots that have a value.

## Main results

* `Json.Document.fits_ofJson` — the document of a value fits a budget that its nesting does not exceed.
* `Json.Document.exists_record?_present` — the record of an object made of slots.
* `Json.Decoder.optional_eq_some` — an optional field is decoded to what was written.
* `Json.Decoder.fieldMap_ofJson`, `Json.Decoder.list_ofJson` — maps and lists are decoded to what was
  written.
-/

namespace SqlFilter.Json

/-! ## Nesting -/

mutual

/-- How many arrays and objects of a value are open at once. -/
def nesting : Json → Nat
  | .null | .bool _ | .num _ | .str _ => 0
  | .arr items => 1 + itemNesting items
  | .obj members => 1 + memberNesting members

/-- The greatest nesting of the items of an array. -/
def itemNesting : List Json → Nat
  | [] => 0
  | v :: rest => max v.nesting (itemNesting rest)

/-- The greatest nesting of the values of the members of an object. -/
def memberNesting : List (String × Json) → Nat
  | [] => 0
  | (_, v) :: rest => max v.nesting (memberNesting rest)

end

/-- The nesting of an array is within a bound if that of its items is within the bound below. -/
theorem nesting_arr_le_iff {items : List Json} {budget : Nat} :
    (Json.arr items).nesting ≤ budget ↔
      ∃ b, budget = b + 1 ∧ ∀ v ∈ items, v.nesting ≤ b := by
  have hitems (b : Nat) : itemNesting items ≤ b ↔ ∀ v ∈ items, v.nesting ≤ b := by
    induction items with
    | nil => simp [itemNesting]
    | cons v items ih => rw [itemNesting, Nat.max_le, ih, List.forall_mem_cons]
  rw [nesting]
  constructor
  · intro h
    exact ⟨budget - 1, by omega, (hitems _).mp (by omega)⟩
  · rintro ⟨b, rfl, h⟩
    have := (hitems b).mpr h
    omega

/-- The nesting of an object is within a bound if that of its members is within the bound below. -/
theorem nesting_obj_le_iff {members : List (String × Json)} {budget : Nat} :
    (Json.obj members).nesting ≤ budget ↔
      ∃ b, budget = b + 1 ∧ ∀ m ∈ members, m.2.nesting ≤ b := by
  have hmembers (b : Nat) : memberNesting members ≤ b ↔ ∀ m ∈ members, m.2.nesting ≤ b := by
    induction members with
    | nil => simp [memberNesting]
    | cons m members ih => rw [memberNesting, Nat.max_le, ih, List.forall_mem_cons]
  rw [nesting]
  constructor
  · intro h
    exact ⟨budget - 1, by omega, (hmembers _).mp (by omega)⟩
  · rintro ⟨b, rfl, h⟩
    have := (hmembers b).mpr h
    omega

namespace Document

/-- **The document of a value fits** a budget that the nesting of the value does not exceed. -/
theorem fits_ofJson {v : Json} {budget : Nat} (h : v.nesting ≤ budget) :
    (ofJson v).fits budget = true := by
  induction v using inductionOn generalizing budget with
  | null | bool _ | num _ | str _ => simp [ofJson, fits]
  | arr items ih =>
    obtain ⟨b, rfl, hitems⟩ := nesting_arr_le_iff.mp h
    rw [ofJson, fits, itemsFit_eq_all, ofItems_eq_map, List.all_map, List.all_eq_true]
    exact fun v hv => ih v hv (hitems v hv)
  | obj members ih =>
    obtain ⟨b, rfl, hmembers⟩ := nesting_obj_le_iff.mp h
    rw [ofJson, fits, membersFit_eq_all, ofMembers_eq_map, List.all_map, List.all_eq_true]
    exact fun m hm => by simpa using ih m hm (hmembers m hm)

end Document

/-! ## Slots -/

/-- The members of the slots that have a value. -/
def present (slots : List (String × Option Json)) : List (String × Json) :=
  slots.filterMap fun s => s.2.map fun v => (s.1, v)

/-- The members of two lists of slots, one after the other. -/
theorem present_append (a b : List (String × Option Json)) :
    present (a ++ b) = present a ++ present b :=
  List.filterMap_append

/-- A member comes from a slot of its name. -/
theorem mem_present_iff {slots : List (String × Option Json)} {m : String × Json} :
    m ∈ present slots ↔ (m.1, some m.2) ∈ slots := by
  simp only [present, List.mem_filterMap, Option.map_eq_some_iff]
  constructor
  · rintro ⟨⟨n, x⟩, hs, v, rfl, rfl⟩
    exact hs
  · intro hm
    exact ⟨_, hm, m.2, rfl, rfl⟩

/-- The names of members are among those of the slots, in the same order. -/
theorem map_fst_present_sublist (slots : List (String × Option Json)) :
    ((present slots).map Prod.fst).Sublist (slots.map Prod.fst) := by
  induction slots with
  | nil => exact .slnil
  | cons s slots ih =>
    obtain ⟨n, x⟩ := s
    cases x with
    | none => exact .cons n ih
    | some v => exact .cons_cons n ih

namespace Document

/-- The documents of members with different names give no field twice. -/
theorem distinctMembers_ofMembers {members : List (String × Json)}
    (h : (members.map Prod.fst).Nodup) (names : List String) :
    distinctMembers names (ofMembers members) = true := by
  have hcount (n : String) : countMembers n (ofMembers members) = (members.map Prod.fst).count n := by
    rw [countMembers, ofMembers_eq_map, List.countP_map, List.count, List.countP_map]
    exact List.countP_congr fun m _ => by simp
  rw [distinctMembers, Bool.and_eq_true, List.all_eq_true, List.all_eq_true]
  refine ⟨fun m hm => ?_, fun n _ => ?_⟩
  · rw [ofMembers_eq_map] at hm
    obtain ⟨m, -, rfl⟩ := List.mem_map.mp hm
    rfl
  · rw [hcount, decide_eq_true_eq]
    exact List.nodup_iff_count_le_one.mp h n

/-- No member is found under a name that none has. -/
theorem findMember_ofMembers_of_notMem {members : List (String × Json)} {n : String}
    (h : n ∉ members.map Prod.fst) : findMember n (ofMembers members) = none := by
  rw [findMember, Option.map_eq_none_iff, List.find?_eq_none, ofMembers_eq_map]
  intro m hm
  obtain ⟨m, hmem, rfl⟩ := List.mem_map.mp hm
  have hne : m.1 ≠ n := fun heq => h (heq ▸ List.mem_map_of_mem hmem)
  simpa using hne

/-- **The value of a slot** is found under its name, if the slots have different names.

**Proof sketch.** Induction on the slots. No other slot has the name of the first one. -/
theorem findMember_present {slots : List (String × Option Json)} (h : (slots.map Prod.fst).Nodup) :
    ∀ s ∈ slots, findMember s.1 (ofMembers (present slots)) = s.2.map ofJson := by
  induction slots with
  | nil => simp
  | cons s slots ih =>
    obtain ⟨n, x⟩ := s
    obtain ⟨hn, hslots⟩ := List.nodup_cons.mp h
    have hfirst : findMember n (ofMembers (present slots)) = none :=
      findMember_ofMembers_of_notMem fun hmem => hn ((map_fst_present_sublist slots).subset hmem)
    have hrest := ih hslots
    cases x with
    | none =>
      simp only [List.forall_mem_cons]
      exact ⟨hfirst, hrest⟩
    | some v =>
      have hcons : present ((n, some v) :: slots) = (n, v) :: present slots := rfl
      rw [hcons, ofMembers]
      simp only [List.forall_mem_cons, findMember_cons, if_true]
      refine ⟨rfl, fun s hs => ?_⟩
      have hmem : s.1 ∈ slots.map Prod.fst := List.mem_map_of_mem hs
      have hne : n ≠ s.1 := fun heq => hn (heq ▸ hmem)
      rw [if_neg hne]
      exact hrest s hs

/-- **The record of an object made of slots** has the value of every slot, if the slots have different
names. -/
theorem exists_record?_present {slots : List (String × Option Json)}
    (h : (slots.map Prod.fst).Nodup) (names : List String) :
    ∃ record, (obj (ofMembers (present slots))).record? names false = some record ∧
      ∀ s ∈ slots, record s.1 = s.2.map ofJson := by
  have hdistinct := distinctMembers_ofMembers (h.sublist (map_fst_present_sublist slots)) names
  exact ⟨_, by rw [record?, if_pos hdistinct], findMember_present h⟩

/-- Only `null` has the document of `null`. -/
theorem ofJson_ne_null {v : Json} (h : v ≠ .null) : ofJson v ≠ .null := by
  cases v <;> simp_all [ofJson]

end Document

/-! ## Decoding what was written -/

namespace Decoder

open Document

variable {α : Type}

/-- **An optional field** is decoded to what was written in its slot, if the decoder of its values does
so. -/
theorem optional_eq_some {record : Document.Record} {name : String} {item : Document → Option α}
    {toJson : α → Json} {x : Option α} (hrecord : record name = (x.map toJson).map ofJson)
    (hnull : ∀ a ∈ x, toJson a ≠ .null) (hitem : ∀ a ∈ x, item (ofJson (toJson a)) = some a) :
    optional record name item = some x := by
  cases x with
  | none => rw [optional, hrecord]; rfl
  | some a =>
    rw [optional_of_some hrecord (ofJson_ne_null (hnull a rfl)), hitem a rfl]
    rfl

/-- Members are inserted one after the other. -/
theorem insertMembers_ofMembers {item : Document → Option α} {toJson : α → Json}
    (entries : List (String × α)) (h : ∀ e ∈ entries, item (ofJson (toJson e.2)) = some e.2)
    (m : FieldMap α) :
    insertMembers item m (ofMembers (entries.map fun e => (e.1, toJson e.2))) =
      some (m.insertAll entries) := by
  induction entries generalizing m with
  | nil => rfl
  | cons e entries ih =>
    obtain ⟨he, hentries⟩ := List.forall_mem_cons.mp h
    simp only [List.map_cons, ofMembers, insertMembers, he, Option.bind_eq_bind, Option.bind_some]
    exact ih hentries (m.insert e.1 e.2)

/-- **A field map** is decoded to what was written, with its fields in the same order. -/
theorem fieldMap_ofJson {item : Decoder α} {toJson : α → Json} {budget : Nat} (m : FieldMap α)
    (h : ∀ e ∈ m.entries, item budget (ofJson (toJson e.2)) = some e.2) :
    fieldMap item (budget + 1) (ofJson (.obj (m.entries.map fun e => (e.1, toJson e.2)))) = some m := by
  have hentries : (FieldMap.empty.insertAll m.entries).entries = m.entries :=
    FieldMap.entries_insertAll_of_nodup _ m.nodup
  rw [ofJson, fieldMap, insertMembers_ofMembers m.entries h]
  exact congrArg some (FieldMap.ext hentries)

/-- **A list** is decoded to what was written. -/
theorem list_ofJson {item : Decoder α} {toJson : α → Json} {budget : Nat} (items : List α)
    (h : ∀ a ∈ items, item budget (ofJson (toJson a)) = some a) :
    list item (budget + 1) (ofJson (.arr (items.map toJson))) = some items := by
  rw [ofJson, ofItems_eq_map, list, List.mapM_map, List.mapM_map]
  induction items with
  | nil => rfl
  | cons a items ih =>
    obtain ⟨ha, hitems⟩ := List.forall_mem_cons.mp h
    simp [List.mapM_cons, ha, ih hitems]

end Decoder

end SqlFilter.Json
