import Mathlib.Data.List.Basic
import SqlFilter.Identifier

set_option relaxedAutoImplicit false
set_option autoImplicit false

/-!
# Reading quoted identifiers

A database reads an identifier in quotation marks from the opening mark to the first mark that is not
doubled, and takes every doubled mark for one. What is written for an identifier is read back as that
identifier, however many marks it has and wherever they stand, and nothing else is read as it. So no
identifier ends early and none reaches into the text that follows.

## Design

The readers know nothing of how identifiers are written: they are the rule of the database, and each
hands back the text that it has not read. The text that follows an identifier must not start with a
mark, since the closing mark and that one would be read as a doubled mark inside the identifier.

## Main definitions

* `Quote.readEnclosed`, `Quote.readIdentifier` — an identifier behind and with its opening mark.
* `Quote.readQualified` — the alias of a table, a period and a column.

## Main results

* `Quote.readEnclosed_eq_some_iff` — what is read is what is enclosed.
* `Quote.reads_back` — quoted and qualified identifiers are read back, and only they are.
-/

namespace SqlFilter

namespace Quote

/-! ## Readers -/

/-- Reads an identifier behind its opening mark. A doubled mark stands for one, and the first mark
that is not doubled closes the identifier. Gives the identifier and the text that follows it. -/
def readEnclosed (mark : Char) : List Char → Option (List Char × List Char)
  | [] => .none
  | [c] => if c = mark then some ([], []) else .none
  | c :: d :: rest =>
    if c ≠ mark then (readEnclosed mark (d :: rest)).map fun r => (c :: r.1, r.2)
    else if d = mark then (readEnclosed mark rest).map fun r => (mark :: r.1, r.2)
    else some ([], d :: rest)

/-- Reads an identifier in quotation marks. -/
def readIdentifier (mark : Char) : List Char → Option (String × List Char)
  | [] => .none
  | c :: cs =>
    if c = mark then (readEnclosed mark cs).map fun r => (String.ofList r.1, r.2) else .none

/-- Reads two identifiers in quotation marks with a period between them. -/
def readQualified (mark : Char) (cs : List Char) : Option (String × String × List Char) :=
  match readIdentifier mark cs with
  | some (table, '.' :: rest) => (readIdentifier mark rest).map fun r => (table, r.1, r.2)
  | _ => .none

/-! ## What is enclosed is read -/

section

variable {mark : Char}

/-- The first character of an enclosed text is doubled if it is the mark. -/
theorem doubled_cons (c : Char) (cs : List Char) :
    doubled mark (c :: cs) = (if c = mark then [mark, mark] else [c]) ++ doubled mark cs := by
  simp [doubled]

/-- A character other than the mark is read as itself. -/
theorem readEnclosed_cons_of_ne {c : Char} (hc : c ≠ mark) (cs : List Char) :
    readEnclosed mark (c :: cs) = (readEnclosed mark cs).map fun r => (c :: r.1, r.2) := by
  cases cs with
  | nil => simp [readEnclosed, hc]
  | cons d rest => simp [readEnclosed, hc]

/-- A doubled mark is read as one. -/
theorem readEnclosed_mark_mark (cs : List Char) : readEnclosed mark (mark :: mark :: cs) =
    (readEnclosed mark cs).map fun r => (mark :: r.1, r.2) := by
  simp [readEnclosed]

/-- A mark that is not doubled closes. -/
theorem readEnclosed_mark {rest : List Char} (hrest : rest.head? ≠ some mark) :
    readEnclosed mark (mark :: rest) = some ([], rest) := by
  cases rest with
  | nil => simp [readEnclosed]
  | cons d rest =>
    have hd : d ≠ mark := fun h => hrest (congrArg some h)
    simp [readEnclosed, hd]

/-- What is enclosed is read, and the rest is left. -/
theorem readEnclosed_doubled (identifier : List Char) {rest : List Char}
    (hrest : rest.head? ≠ some mark) :
    readEnclosed mark (doubled mark identifier ++ mark :: rest) = some (identifier, rest) := by
  induction identifier with
  | nil => exact readEnclosed_mark hrest
  | cons c identifier ih =>
    rw [doubled_cons]
    by_cases hc : c = mark
    · subst hc
      rw [if_pos rfl, List.append_assoc]
      exact (readEnclosed_mark_mark _).trans (congrArg _ ih)
    · rw [if_neg hc, List.append_assoc]
      exact (readEnclosed_cons_of_ne hc _).trans (congrArg _ ih)

/-- **What is read is what is enclosed.** The text behind an opening mark is read as an identifier
exactly if it is that identifier with its marks doubled, a closing mark, and a text that starts with
no mark.

**Proof sketch.** Writing then reading is by induction on the identifier. Reading then writing
follows the reader: each of its steps takes off what is written for one character. -/
theorem readEnclosed_eq_some_iff {cs identifier rest : List Char} :
    readEnclosed mark cs = some (identifier, rest) ↔
      cs = doubled mark identifier ++ mark :: rest ∧ rest.head? ≠ some mark := by
  constructor
  · intro h
    induction cs using readEnclosed.induct mark generalizing identifier with
    | case1 => simp [readEnclosed] at h
    | case2 =>
      obtain ⟨rfl, rfl⟩ : [] = identifier ∧ [] = rest := by simpa [readEnclosed] using h
      simp [doubled]
    | case3 c hc => simp [readEnclosed, hc] at h
    | case4 c d tail hc ih =>
      rw [readEnclosed_cons_of_ne hc] at h
      obtain ⟨r, hr, hpair⟩ := Option.map_eq_some_iff.mp h
      obtain ⟨rfl, rfl⟩ := Prod.mk.inj hpair
      obtain ⟨htail, hrest⟩ := ih hr
      refine ⟨?_, hrest⟩
      rw [htail, doubled_cons, if_neg hc]
      rfl
    | case5 c tail hc ih =>
      obtain rfl : c = mark := not_not.mp hc
      rw [readEnclosed_mark_mark] at h
      obtain ⟨r, hr, hpair⟩ := Option.map_eq_some_iff.mp h
      obtain ⟨rfl, rfl⟩ := Prod.mk.inj hpair
      obtain ⟨htail, hrest⟩ := ih hr
      refine ⟨?_, hrest⟩
      rw [htail, doubled_cons, if_pos rfl]
      rfl
    | case6 c d tail hc hd =>
      obtain rfl : c = mark := not_not.mp hc
      have hhead : (d :: tail).head? ≠ some c := fun heq => hd (Option.some.inj heq)
      rw [readEnclosed_mark hhead] at h
      obtain ⟨rfl, rfl⟩ := Prod.mk.inj (Option.some.inj h)
      exact ⟨rfl, hhead⟩
  · rintro ⟨rfl, hrest⟩
    exact readEnclosed_doubled identifier hrest

end

/-! ## Identifiers and columns -/

section

variable {q : Quote} {mark : Char}

/-- The characters of an identifier in a style with quotation marks. -/
theorem toList_quoted (hmark : q.mark = some mark) (identifier : String) :
    (q.quoted identifier).toList = mark :: (doubled mark identifier.toList ++ [mark]) := by
  simp [quoted, hmark, enclosed]

/-- An identifier is read exactly where it is written. -/
theorem readIdentifier_eq_some_iff (hmark : q.mark = some mark) {cs : List Char}
    {identifier : String} {rest : List Char} :
    readIdentifier mark cs = some (identifier, rest) ↔
      cs = (q.quoted identifier).toList ++ rest ∧ rest.head? ≠ some mark := by
  rw [toList_quoted hmark, List.cons_append, List.append_assoc, List.singleton_append]
  cases cs with
  | nil => simp [readIdentifier]
  | cons c cs =>
    by_cases hc : c = mark
    · rw [readIdentifier, if_pos hc, hc, List.cons.injEq, eq_self_iff_true, true_and,
        ← readEnclosed_eq_some_iff, Option.map_eq_some_iff]
      constructor
      · rintro ⟨⟨cs', rest'⟩, hread, hpair⟩
        obtain ⟨rfl, rfl⟩ := Prod.mk.inj hpair
        rw [String.toList_ofList]
        exact hread
      · intro hread
        exact ⟨_, hread, by rw [String.ofList_toList]⟩
    · rw [readIdentifier, if_neg hc, List.cons.injEq]
      simp [hc]

/-- The characters of a column. -/
theorem toList_qualified (table column : String) : (q.qualified table column).toList =
    (q.quoted table).toList ++ '.' :: (q.quoted column).toList := by
  simp [qualified]

/-- A column is read exactly where it is written. The alias is always followed by a period, which is
no mark.

**Proof sketch.** An identifier is read exactly where it is written and no mark follows
(`readIdentifier_eq_some_iff`). The alias is followed by the period. So this applies to the alias
and then, behind the period, to the column. -/
theorem readQualified_eq_some_iff (hmark : q.mark = some mark) {cs : List Char}
    {table column : String} {rest : List Char} :
    readQualified mark cs = some (table, column, rest) ↔
      cs = (q.qualified table column).toList ++ rest ∧ rest.head? ≠ some mark := by
  have hperiod : '.' ≠ mark := by
    rintro rfl
    cases q <;> simp [Quote.mark] at hmark
  rw [toList_qualified, List.append_assoc, List.cons_append]
  constructor
  · intro h
    rw [readQualified] at h
    split at h
    · rename_i table' tail hread
      obtain ⟨⟨column', rest'⟩, hcolumn, hpair⟩ := Option.map_eq_some_iff.mp h
      simp only [Prod.mk.injEq] at hpair
      obtain ⟨rfl, rfl, rfl⟩ := hpair
      obtain ⟨rfl, -⟩ := (readIdentifier_eq_some_iff hmark).mp hread
      obtain ⟨rfl, hrest⟩ := (readIdentifier_eq_some_iff hmark).mp hcolumn
      exact ⟨rfl, hrest⟩
    · simp at h
  · rintro ⟨rfl, hrest⟩
    have htable : readIdentifier mark
        ((q.quoted table).toList ++ '.' :: ((q.quoted column).toList ++ rest)) =
          some (table, '.' :: ((q.quoted column).toList ++ rest)) :=
      (readIdentifier_eq_some_iff hmark).mpr
        ⟨rfl, fun heq => hperiod (Option.some.inj heq)⟩
    have hcolumn : readIdentifier mark ((q.quoted column).toList ++ rest) = some (column, rest) :=
      (readIdentifier_eq_some_iff hmark).mpr ⟨rfl, hrest⟩
    simp only [readQualified, htable, hcolumn, Option.map_some]

end

/-- **Quoted identifiers are read back.** In a style with quotation marks, for texts that start with
no mark behind them:

- an identifier is read exactly where it is written, and the text behind it is left;
- alias and column are read exactly where a column is written;
- so a column is written like no other one.

**Proof sketch.** The readers undo the writing step by step. Two columns that are written alike are
read from the same text. -/
theorem reads_back (q : Quote) (mark : Char) (hmark : q.mark = some mark) :
    (∀ (cs : List Char) (identifier : String) (rest : List Char),
      readIdentifier mark cs = some (identifier, rest) ↔
        cs = (q.quoted identifier).toList ++ rest ∧ rest.head? ≠ some mark) ∧
    (∀ (cs : List Char) (table column : String) (rest : List Char),
      readQualified mark cs = some (table, column, rest) ↔
        cs = (q.qualified table column).toList ++ rest ∧ rest.head? ≠ some mark) ∧
    ∀ table column table' column' : String,
      q.qualified table column = q.qualified table' column' → table = table' ∧ column = column' := by
  refine ⟨fun cs identifier rest => readIdentifier_eq_some_iff hmark,
    fun cs table column rest => readQualified_eq_some_iff hmark, ?_⟩
  intro table column table' column' h
  have hread (table column : String) :
      readQualified mark (q.qualified table column).toList = some (table, column, []) :=
    (readQualified_eq_some_iff hmark).mpr ⟨(List.append_nil _).symm, by simp⟩
  have hpair := (hread table column).symm.trans (h ▸ hread table' column')
  simp only [Option.some.injEq, Prod.mk.injEq, and_true] at hpair
  exact hpair

/-- A name with marks inside and at its end, before an equality. -/
theorem reads_back_innerMarks : Quote.double.mark = some '"' ∧
    readQualified '"' "\"t\".\"we\"\"ird\"\"\"\"\" = 1".toList =
      some ("t", "we\"ird\"\"", " = 1".toList) :=
  ⟨rfl, ((reads_back .double '"' rfl).2.1 _ _ _ _).mpr ⟨by decide, by decide⟩⟩

end Quote

end SqlFilter
