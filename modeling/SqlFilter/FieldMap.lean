set_option relaxedAutoImplicit false
set_option autoImplicit false

/-!
# Field maps

A field map assigns values to field names and remembers the order in which the names first came.
That order is seen in generated statements and in the names of their parameters, so it is part of
the map: a map is a list of entries no two of which have the same name.

## Main definitions

* `FieldMap` — the maps.
* `FieldMap.insertEntry` — insertion into a list of entries.
* `FieldMap.insert`, `FieldMap.get?`, `FieldMap.ofList` — the operations on maps.

## Main results

* `FieldMap.nodup_insertEntry` — insertion keeps the names distinct.
* `FieldMap.get?_insert` — the map after an insertion has the new value at its name and is unchanged
  elsewhere.
-/

namespace SqlFilter

/-- A map from field names to values, in the order in which the names first came. -/
@[ext]
structure FieldMap (α : Type) where
  entries : List (String × α)
  nodup : (entries.map Prod.fst).Nodup

namespace FieldMap

variable {α : Type}

/-! ## Entries -/

/-- Adds an entry to a list of entries. An entry of the same name keeps its place and takes the new
value; a new name goes to the end. -/
def insertEntry (field : String) (value : α) : List (String × α) → List (String × α)
  | [] => [(field, value)]
  | (f, v) :: rest =>
    if f = field then (f, value) :: rest else (f, v) :: insertEntry field value rest

/-- The names after an insertion are those before it and the new one, at the end if it is new. -/
theorem map_fst_insertEntry (field : String) (value : α) (entries : List (String × α)) :
    (insertEntry field value entries).map Prod.fst =
      if field ∈ entries.map Prod.fst then entries.map Prod.fst
      else entries.map Prod.fst ++ [field] := by
  induction entries with
  | nil => simp [insertEntry]
  | cons e rest ih =>
    obtain ⟨f, v⟩ := e
    by_cases h : f = field
    · simp [insertEntry, h]
    · have h' : ¬ field = f := fun e => h e.symm
      by_cases hm : field ∈ rest.map Prod.fst
      · simp only [insertEntry, h, ↓reduceIte, List.map_cons, ih, hm, List.mem_cons, or_true]
      · simp only [insertEntry, h, ↓reduceIte, List.map_cons, ih, hm, List.mem_cons, h', or_self,
          List.cons_append]

/-- Insertion keeps the names distinct. -/
theorem nodup_insertEntry (field : String) (value : α) {entries : List (String × α)}
    (h : (entries.map Prod.fst).Nodup) :
    ((insertEntry field value entries).map Prod.fst).Nodup := by
  rw [map_fst_insertEntry]
  split
  · exact h
  · rename_i hm
    rw [List.nodup_append]
    refine ⟨h, by simp, ?_⟩
    intro a ha b hb hab
    simp only [List.mem_singleton] at hb
    exact hm (hb ▸ hab ▸ ha)

/-- The value of the first entry of a name. -/
def lookupEntry (field : String) : List (String × α) → Option α
  | [] => none
  | (f, v) :: rest => if f = field then some v else lookupEntry field rest

/-! ## Maps -/

/-- The map without fields. -/
def empty : FieldMap α := ⟨[], by simp⟩

instance : Inhabited (FieldMap α) := ⟨empty⟩

/-- Gives a field a value. A field that is there already keeps its place. -/
def insert (m : FieldMap α) (field : String) (value : α) : FieldMap α :=
  ⟨insertEntry field value m.entries, nodup_insertEntry field value m.nodup⟩

/-- The value of a field. -/
def get? (m : FieldMap α) (field : String) : Option α := lookupEntry field m.entries

/-- The fields of a map, in order. -/
def fields (m : FieldMap α) : List String := m.entries.map Prod.fst

/-- A field has a value. -/
def contains (m : FieldMap α) (field : String) : Bool := (m.get? field).isSome

/-- How many fields a map has. -/
def size (m : FieldMap α) : Nat := m.entries.length

/-- A map has no field. -/
def isEmpty (m : FieldMap α) : Bool := m.entries.isEmpty

/-- Inserts entries one after the other. -/
def insertAll (m : FieldMap α) (entries : List (String × α)) : FieldMap α :=
  entries.foldl (fun m e => m.insert e.1 e.2) m

/-- The map that entries give when inserted one after the other. -/
def ofList (entries : List (String × α)) : FieldMap α := empty.insertAll entries

@[simp] theorem entries_insert (m : FieldMap α) (field : String) (value : α) :
    (m.insert field value).entries = insertEntry field value m.entries := rfl

/-- Looking up after an insertion into a list of entries. -/
theorem lookupEntry_insertEntry (field other : String) (value : α) (entries : List (String × α)) :
    lookupEntry other (insertEntry field value entries) =
      if field = other then some value else lookupEntry other entries := by
  induction entries with
  | nil => simp [insertEntry, lookupEntry]
  | cons e rest ih =>
    obtain ⟨f, v⟩ := e
    by_cases h : f = field
    · subst h
      by_cases h' : f = other <;> simp [insertEntry, lookupEntry, h']
    · by_cases h' : f = other
      · subst h'
        have h' : ¬ field = f := fun e => h e.symm
        simp [insertEntry, lookupEntry, h, h']
      · simp [insertEntry, lookupEntry, h, h', ih]

/-- The map after an insertion has the new value at its name and is unchanged elsewhere. -/
theorem get?_insert (m : FieldMap α) (field other : String) (value : α) :
    (m.insert field value).get? other = if field = other then some value else m.get? other :=
  lookupEntry_insertEntry field other value m.entries

end FieldMap

end SqlFilter
