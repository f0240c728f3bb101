import SqlFilter.Proofs.Json.Integers
import SqlFilter.Proofs.Json.Strings

set_option relaxedAutoImplicit false
set_option autoImplicit false

/-!
# Printed values are read back

The compact text of a value is read as the document of the value, if all numbers in it are integers of
64 bits. Strings and member names are arbitrary, and so is the nesting.

## Design

The reader counts steps, so that it ends. A value takes no more steps than its text has characters;
reading the items of an array or the members of an object takes one more. This bound goes through the
induction together with what is read.

## Main definitions

* `Json.numbers`, `Json.HasWords` — the numbers in a value, and values whose numbers are integers of 64
  bits.
* `Json.Document.ReadsBack` — the text of a value is read as the document of the value.

## Main results

* `Json.inductionOn` — induction with a hypothesis for every item and member.
* `Json.Document.readsBack` — a printed value is read back, whatever follows it.
* `Json.Document.read_compact` — a text is read back.
-/

namespace SqlFilter.Json

/-! ## Values -/

/-- **Induction on a value**: a hypothesis for every item and for the value of every member. -/
@[elab_as_elim]
theorem inductionOn {motive : Json → Prop} (v : Json) (null : motive .null)
    (bool : ∀ b, motive (.bool b)) (num : ∀ n, motive (.num n)) (str : ∀ s, motive (.str s))
    (arr : ∀ items : List Json, (∀ v ∈ items, motive v) → motive (.arr items))
    (obj : ∀ members : List (String × Json), (∀ m ∈ members, motive m.2) → motive (.obj members)) :
    motive v := by
  refine Json.rec (motive_1 := motive) (motive_2 := fun items => ∀ v ∈ items, motive v)
    (motive_3 := fun members => ∀ m ∈ members, motive m.2) (motive_4 := fun m => motive m.2)
    null bool num str arr obj ?_ ?_ ?_ ?_ ?_ v
  · simp
  · intro v items hv hitems
    simp only [List.mem_cons, forall_eq_or_imp]
    exact ⟨hv, hitems⟩
  · simp
  · intro m members hm hmembers
    simp only [List.mem_cons, forall_eq_or_imp]
    exact ⟨hm, hmembers⟩
  · intro k v hv
    exact hv

mutual

/-- The numbers in a value. -/
def numbers : Json → List Number
  | .null | .bool _ | .str _ => []
  | .num n => [n]
  | .arr items => itemNumbers items
  | .obj members => memberNumbers members

/-- The numbers in the items of an array. -/
def itemNumbers : List Json → List Number
  | [] => []
  | v :: rest => v.numbers ++ itemNumbers rest

/-- The numbers in the members of an object. -/
def memberNumbers : List (String × Json) → List Number
  | [] => []
  | (_, v) :: rest => v.numbers ++ memberNumbers rest

end

/-- All numbers in a value are integers of 64 bits. -/
def HasWords (v : Json) : Prop := ∀ n ∈ v.numbers, ∃ i, n = .int i ∧ IsWord i

/-- An array has words if all its items do. -/
theorem hasWords_arr_iff (items : List Json) :
    HasWords (.arr items) ↔ ∀ v ∈ items, HasWords v := by
  rw [HasWords, numbers]
  induction items with
  | nil => simp [itemNumbers]
  | cons v items ih =>
    simp only [itemNumbers, List.mem_append, or_imp, forall_and, ih, List.forall_mem_cons]
    rfl

/-- An object has words if the values of all its members do. -/
theorem hasWords_obj_iff (members : List (String × Json)) :
    HasWords (.obj members) ↔ ∀ m ∈ members, HasWords m.2 := by
  rw [HasWords, numbers]
  induction members with
  | nil => simp [memberNumbers]
  | cons m members ih =>
    simp only [memberNumbers, List.mem_append, or_imp, forall_and, ih, List.forall_mem_cons]
    rfl

namespace Document

/-- The documents of items, item by item. -/
theorem ofItems_eq_map (items : List Json) : ofItems items = items.map ofJson := by
  induction items with
  | nil => rfl
  | cons v items ih => rw [ofItems, ih, List.map_cons]

/-- The documents of members, member by member. -/
theorem ofMembers_eq_map (members : List (String × Json)) :
    ofMembers members = members.map fun m => (some m.1, ofJson m.2) := by
  induction members with
  | nil => rfl
  | cons m members ih => rw [ofMembers, ih, List.map_cons]

end Document

/-! ## Where values begin -/

/-- No blank is skipped before another character. -/
theorem skipSpace_cons {c : Char} (h : isSpace c = false) (cs : List Char) :
    skipSpace (c :: cs) = c :: cs :=
  List.dropWhile_cons_of_neg (by simp [h])

/-- What begins a number is no blank. -/
theorem StartsNumber.isSpace_eq_false {c : Char} (h : StartsNumber c) : isSpace c = false := by
  simp [isSpace, h.ne (x := ' ') (by decide) (by decide), h.ne (x := '\t') (by decide) (by decide),
    h.ne (x := '\n') (by decide) (by decide), h.ne (x := '\r') (by decide) (by decide)]

/-- The text of a value begins with a character that is no blank and closes no array. -/
theorem exists_chars_cons {v : Json} (h : HasWords v) :
    ∃ c cs, v.chars = c :: cs ∧ isSpace c = false ∧ c ≠ ']' := by
  cases v with
  | null => exact ⟨_, _, rfl, by decide, by decide⟩
  | bool b => cases b <;> exact ⟨_, _, rfl, by decide, by decide⟩
  | num n =>
    obtain ⟨i, rfl, -⟩ := h n (by simp [numbers])
    obtain ⟨c, cs, hcons, hc⟩ := exists_integerChars_cons i
    exact ⟨c, cs, hcons, hc.isSpace_eq_false, hc.ne (by decide) (by decide)⟩
  | str s => exact ⟨_, _, by rw [chars, quotedChars], by decide, by decide⟩
  | arr items => exact ⟨_, _, by rw [chars], by decide, by decide⟩
  | obj members => exact ⟨_, _, by rw [chars], by decide, by decide⟩

/-- The text of items begins like that of the first one. -/
theorem exists_itemChars_cons {v : Json} {items : List Json} (h : ∀ w ∈ v :: items, HasWords w) :
    ∃ c cs, itemChars (v :: items) = c :: cs ∧ isSpace c = false ∧ c ≠ ']' := by
  obtain ⟨c, cs, hcons, hc⟩ := exists_chars_cons (h v List.mem_cons_self)
  cases items with
  | nil => exact ⟨c, cs, by rw [itemChars, hcons], hc⟩
  | cons w items => exact ⟨c, _, by rw [itemChars, hcons, List.cons_append], hc⟩

/-- The text of members begins with a quotation mark. -/
theorem exists_memberChars_cons (m : String × Json) (members : List (String × Json)) :
    ∃ cs, memberChars (m :: members) = '"' :: cs := by
  obtain ⟨k, v⟩ := m
  cases members with
  | nil => exact ⟨_, by rw [memberChars, quotedChars, List.cons_append]⟩
  | cons w members =>
    exact ⟨_, by rw [memberChars, quotedChars, List.append_assoc, List.cons_append]⟩

/-! ## Reading values -/

namespace Document

/-- A number is read as its literal. -/
theorem readValue_number {c : Char} (h : StartsNumber c) (cs : List Char) (steps : Nat) :
    readValue (steps + 1) (c :: cs) =
      (readLiteral (c :: cs)).map fun r => (.num r.1.value?, r.2) := by
  rw [readValue, skipSpace_cons h.isSpace_eq_false]
  split
  case h_7 => cases readLiteral (c :: cs) <;> rfl
  all_goals
    rename_i heq
    exact absurd (List.cons.inj heq).1 (h.ne (by decide) (by decide))

/-- **A value is read back**: its text is read as its document, in as many steps as the text has
characters and one more, whatever follows it but what goes on with a number. -/
def ReadsBack (v : Json) : Prop :=
  ∀ steps rest, v.chars.length < steps → EndsNumber rest →
    readValue steps (v.chars ++ rest) = some (ofJson v, rest)

/-- It is enough if a value is read back in at least one step. -/
theorem ReadsBack.of_succ {v : Json}
    (h : ∀ steps rest, v.chars.length ≤ steps → EndsNumber rest →
      readValue (steps + 1) (v.chars ++ rest) = some (ofJson v, rest)) : ReadsBack v := by
  intro steps rest hsteps hrest
  obtain ⟨steps, rfl⟩ := Nat.exists_eq_add_one_of_ne_zero (Nat.ne_of_gt (Nat.zero_lt_of_lt hsteps))
  exact h steps rest (Nat.le_of_lt_succ hsteps) hrest

/-- The items of an array are read back up to its bracket, if each of them is.

**Proof sketch.** Induction on the items. What is left after an item is a comma or the bracket, and
neither goes on with a number. -/
theorem readItems_itemChars {items : List Json} (hne : items ≠ [])
    (h : ∀ v ∈ items, ReadsBack v) (read : List Document) (rest : List Char) :
    ∀ steps, (itemChars items).length + 1 < steps →
      readItems steps read (itemChars items ++ ']' :: rest) =
        some (.arr (read.reverse ++ items.map ofJson), rest) := by
  induction items generalizing read with
  | nil => exact absurd rfl hne
  | cons v items ih =>
    intro steps hsteps
    obtain ⟨steps, rfl⟩ := Nat.exists_eq_add_one_of_ne_zero (Nat.ne_of_gt (Nat.zero_lt_of_lt hsteps))
    have hv : ReadsBack v := h v List.mem_cons_self
    cases items with
    | nil =>
      rw [itemChars] at hsteps ⊢
      have hend : EndsNumber (']' :: rest) := by simp [EndsNumber]
      rw [readItems, hv _ _ (by omega) hend]
      simp [skipSpace_cons (show isSpace ']' = false by decide)]
    | cons w items =>
      rw [itemChars] at hsteps ⊢
      simp only [List.length_append, List.length_cons] at hsteps
      have hend (cs : List Char) : EndsNumber (',' :: cs) := by simp [EndsNumber]
      rw [List.append_assoc, List.cons_append, readItems, hv _ _ (by omega) (hend _)]
      have hrest := ih (by simp) (fun x hx => h x (List.mem_cons_of_mem _ hx)) (ofJson v :: read) steps
        (by omega)
      simp only [skipSpace_cons (show isSpace ',' = false by decide), hrest]
      simp

/-- One member is read back, and after a comma there are more of them. -/
theorem readMembers_comma {v : Json} {steps : Nat} {rest : List Char}
    (hv : readValue steps (v.chars ++ ',' :: rest) = some (ofJson v, ',' :: rest)) (k : String)
    (read : List (Option String × Document)) :
    readMembers (steps + 1) read (quotedChars k ++ ':' :: (v.chars ++ ',' :: rest)) =
      readMembers steps ((some k, ofJson v) :: read) rest := by
  rw [readMembers, quotedChars, List.cons_append, List.append_assoc, List.singleton_append]
  simp [skipSpace_cons (show isSpace '"' = false by decide), readString_quoted,
    skipSpace_cons (show isSpace ':' = false by decide), hv,
    skipSpace_cons (show isSpace ',' = false by decide)]

/-- One member is read back, and after it the brace ends the object. -/
theorem readMembers_brace {v : Json} {steps : Nat} {rest : List Char}
    (hv : readValue steps (v.chars ++ '\x7d' :: rest) = some (ofJson v, '\x7d' :: rest)) (k : String)
    (read : List (Option String × Document)) :
    readMembers (steps + 1) read (quotedChars k ++ ':' :: (v.chars ++ '\x7d' :: rest)) =
      some (.obj ((some k, ofJson v) :: read).reverse, rest) := by
  rw [readMembers, quotedChars, List.cons_append, List.append_assoc, List.singleton_append]
  simp [skipSpace_cons (show isSpace '"' = false by decide), readString_quoted,
    skipSpace_cons (show isSpace ':' = false by decide), hv,
    skipSpace_cons (show isSpace '\x7d' = false by decide)]

/-- The members of an object are read back up to its brace, if the value of each of them is.

**Proof sketch.** Induction on the members. Behind a value stands the brace of the object if it is
the last one and else a comma, and either of them ends a number. So the value is read back, and
after a comma the other members are. -/
theorem readMembers_memberChars {members : List (String × Json)} (hne : members ≠ [])
    (h : ∀ m ∈ members, ReadsBack m.2) (read : List (Option String × Document)) (rest : List Char) :
    ∀ steps, (memberChars members).length + 1 < steps →
      readMembers steps read (memberChars members ++ '\x7d' :: rest) =
        some (.obj (read.reverse ++ members.map fun m => (some m.1, ofJson m.2)), rest) := by
  induction members generalizing read with
  | nil => exact absurd rfl hne
  | cons m members ih =>
    intro steps hsteps
    obtain ⟨k, v⟩ := m
    obtain ⟨steps, rfl⟩ := Nat.exists_eq_add_one_of_ne_zero (Nat.ne_of_gt (Nat.zero_lt_of_lt hsteps))
    have hv : ReadsBack v := h (k, v) List.mem_cons_self
    cases members with
    | nil =>
      rw [memberChars] at hsteps ⊢
      simp only [List.length_append, List.length_cons] at hsteps
      have hend : EndsNumber ('\x7d' :: rest) := by simp [EndsNumber]
      rw [List.append_assoc, List.cons_append, readMembers_brace (hv _ _ (by omega) hend)]
      simp
    | cons w members =>
      rw [memberChars] at hsteps ⊢
      simp only [List.length_append, List.length_cons] at hsteps
      have hend (cs : List Char) : EndsNumber (',' :: cs) := by simp [EndsNumber]
      rw [List.append_assoc, List.append_assoc, List.cons_append, List.cons_append,
        readMembers_comma (hv _ _ (by omega) (hend _)),
        ih (by simp) (fun x hx => h x (List.mem_cons_of_mem _ hx)) _ steps (by omega)]
      simp

/-- An array is read back if its items are. -/
theorem readsBack_arr {items : List Json} (hwords : ∀ v ∈ items, HasWords v)
    (h : ∀ v ∈ items, ReadsBack v) : ReadsBack (.arr items) := by
  refine .of_succ fun steps rest hsteps _ => ?_
  rw [chars, List.length_cons, List.length_append, List.length_singleton] at hsteps
  rw [chars, List.cons_append, List.append_assoc, List.singleton_append, ofJson, ofItems_eq_map,
    readValue, skipSpace_cons (by decide)]
  cases items with
  | nil => simp [itemChars, skipSpace_cons (show isSpace ']' = false by decide)]
  | cons v items =>
    obtain ⟨c, cs, hcons, hspace, hclosing⟩ := exists_itemChars_cons hwords
    have hread := readItems_itemChars (List.cons_ne_nil v items) h [] rest steps (by omega)
    rw [hcons, List.cons_append] at hread ⊢
    simp only [skipSpace_cons hspace, hread]
    simp [hclosing]

/-- An object is read back if the values of its members are. -/
theorem readsBack_obj {members : List (String × Json)} (h : ∀ m ∈ members, ReadsBack m.2) :
    ReadsBack (.obj members) := by
  refine .of_succ fun steps rest hsteps _ => ?_
  rw [chars, List.length_cons, List.length_append, List.length_singleton] at hsteps
  rw [chars, List.cons_append, List.append_assoc, List.singleton_append, ofJson, ofMembers_eq_map,
    readValue, skipSpace_cons (by decide)]
  cases members with
  | nil => simp [memberChars, skipSpace_cons (show isSpace '\x7d' = false by decide)]
  | cons m members =>
    have hread := readMembers_memberChars (List.cons_ne_nil m members) h [] rest steps (by omega)
    obtain ⟨cs, hcons⟩ := exists_memberChars_cons m members
    rw [hcons, List.cons_append] at hread ⊢
    simp only [skipSpace_cons (show isSpace '"' = false by decide), hread]
    simp

/-- **Every value is read back**, if all its numbers are integers of 64 bits.

**Proof sketch.** Induction on the value. `null`, the truth values and strings are read back
whatever follows them. An integer of 64 bits is read back if no digit follows. For arrays and
objects this is `readsBack_arr` and `readsBack_obj`. -/
theorem readsBack {v : Json} (h : HasWords v) : ReadsBack v := by
  induction v using inductionOn with
  | null =>
    refine .of_succ fun steps rest _ _ => ?_
    simp [chars, readValue, skipSpace_cons (show isSpace 'n' = false by decide), ofJson]
  | bool b =>
    refine .of_succ fun steps rest _ _ => ?_
    cases b with
    | false => simp [chars, readValue, skipSpace_cons (show isSpace 'f' = false by decide), ofJson]
    | true => simp [chars, readValue, skipSpace_cons (show isSpace 't' = false by decide), ofJson]
  | num n =>
    refine .of_succ fun steps rest _ hrest => ?_
    obtain ⟨i, rfl, hi⟩ := h n (by simp [numbers])
    have hread := readLiteral_integerChars i hrest
    obtain ⟨c, cs, hcons, hc⟩ := exists_integerChars_cons i
    rw [hcons, List.cons_append] at hread
    rw [chars, Number.chars, hcons, List.cons_append, readValue_number hc, hread, Option.map_some,
      Literal.value?_ofInt hi, ofJson]
  | str s =>
    refine .of_succ fun steps rest _ _ => ?_
    rw [chars, quotedChars, List.cons_append, List.append_assoc, List.singleton_append, readValue,
      skipSpace_cons (by decide)]
    simp [readString_quoted, ofJson]
  | arr items ih =>
    rw [hasWords_arr_iff] at h
    exact readsBack_arr h fun v hv => ih v hv (h v hv)
  | obj members ih =>
    rw [hasWords_obj_iff] at h
    exact readsBack_obj fun m hm => ih m hm (h m hm)

/-- **A printed text is read back**, if all numbers in it are integers of 64 bits. -/
theorem read_compact {v : Json} (h : HasWords v) : read v.compact = some (ofJson v) := by
  have hread := readsBack h (v.chars.length + 1) [] (Nat.lt_succ_self _) (by simp [EndsNumber])
  rw [List.append_nil] at hread
  simp [read, compact, hread, skipSpace]

end Document

end SqlFilter.Json
