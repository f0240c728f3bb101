import Mathlib.Data.List.Count
import Mathlib.Data.List.TakeWhile
import SqlFilter.Proofs.Statements

set_option relaxedAutoImplicit false
set_option autoImplicit false

/-!
# Statements read from left to right

Expansion cuts a statement at its delimiters and looks for one placeholder in each word. Here the
placeholders are found in another way: the statement is read once from left to right, a colon begins a
placeholder if a character of a name follows it, and the placeholder takes all the characters of names
that come next. Both find the same placeholders, so an expanded statement is what was read with its
placeholders replaced, and the first of them that cannot be bound decides the error.

## Design

The reading knows neither words nor parameters, so it can be told from the statement alone what has to
be bound. An expanded statement holds no placeholder because every colon that was no placeholder is
followed by a delimiter or by nothing, and is so still: question marks come in the place of text that
began with a colon.

## Main definitions

* `Piece`, `scan` — the characters and placeholders of a text, from left to right.
* `placeholders` — the names of the placeholders of a statement.
* `bindError?` — why a placeholder cannot be bound.

## Main results

* `expandChars_eq_scan` — an expansion, read off the pieces.
* `expand_piecewise` — expansion around a delimiter, and which error is reported.
* `expand_complete` — what an expanded statement consists of.
-/

namespace SqlFilter

/-! ## Pieces -/

/-- A piece of a statement: a character that belongs to no placeholder, or a placeholder. -/
inductive Piece where
  | char (c : Char)
  | placeholder (name : String)
deriving DecidableEq

namespace Piece

/-- The text of a piece. -/
def chars : Piece → List Char
  | .char c => [c]
  | .placeholder name => (SqlFilter.placeholder name).toList

/-- The name of a placeholder. -/
def name? : Piece → Option String
  | .char _ => none
  | .placeholder name => some name

variable (params : FieldMap Json)

/-- The values that a piece binds. -/
def values : Piece → List Json
  | .char _ => []
  | .placeholder name => (params.get? name).elim [] Json.items

/-- What is written for a piece: a question mark for each value of a placeholder. -/
def bound : Piece → List Char
  | .char c => [c]
  | .placeholder name => marks (values params (.placeholder name)).length

end Piece

/-- The characters at the front of a text that a name can have. -/
def leadingName (cs : List Char) : List Char := cs.takeWhile fun c => !isDelimiter c

/-- A text without the characters at its front that a name can have. -/
def afterName (cs : List Char) : List Char := cs.dropWhile fun c => !isDelimiter c

/-- A name and what follows it. -/
theorem leadingName_append_afterName (cs : List Char) : leadingName cs ++ afterName cs = cs :=
  List.takeWhile_append_dropWhile

/-- Nothing is longer after a name. -/
theorem length_afterName_le (cs : List Char) : (afterName cs).length ≤ cs.length :=
  (List.dropWhile_suffix _).length_le

/-- **Reads a text from left to right.** A colon before a character of a name begins a placeholder, and
the placeholder is as long as possible. Any other character is a piece of its own. -/
def scan : List Char → List Piece
  | [] => []
  | c :: cs =>
    if c = ':' ∧ leadingName cs ≠ [] then
      .placeholder (String.ofList (leadingName cs)) :: scan (afterName cs)
    else .char c :: scan cs
termination_by cs => cs.length
decreasing_by
  · exact Nat.lt_succ_of_le (length_afterName_le cs)
  · exact Nat.lt_succ_self _

/-- The names of the placeholders of a statement, from left to right. -/
def placeholders (sql : String) : List String := (scan sql.toList).filterMap Piece.name?

/-- Why a placeholder cannot be bound: it has no value, or its list is empty. -/
def bindError? (params : FieldMap Json) (name : String) : Option BindError :=
  match params.get? name with
  | none => some (.unknownParameter name)
  | some (.arr []) => some (.emptyList name)
  | some _ => none

/-! ## Expanding piece by piece -/

section

variable (params : FieldMap Json)

/-- A placeholder that can be bound is replaced by its question marks. -/
theorem expandName_eq (name : String) : expandName params name =
    match bindError? params name with
    | some e => .error e
    | none => .ok ((Piece.placeholder name).bound params, (Piece.placeholder name).values params) := by
  cases hget : params.get? name with
  | none => simp [expandName, bindError?, hget]
  | some v =>
    rw [expandName_of_get? hget, bindError?, Piece.bound, Piece.values, hget]
    cases v with
    | arr items => cases items <;> simp [Json.items]
    | _ => rfl

/-- A character before the first colon of a word is not changed. -/
private theorem expandWord_cons {c : Char} (hc : c ≠ ':') (word : List Char) :
    expandWord params (c :: word) = Expansion.append (.ok ([c], [])) (expandWord params word) := by
  have hname : Word.name? (c :: word) = Word.name? word := by
    simp [Word.name?, hc]
  have hbefore : Word.beforeName (c :: word) = c :: Word.beforeName word := by
    simp [Word.beforeName, hc]
  cases h : Word.name? word with
  | none => rw [expandWord, expandWord, hname, h]; rfl
  | some name =>
    rw [expandWord_of_name? params (hname.trans h), expandWord_of_name? params h, hbefore,
      ← Expansion.append_assoc]
    rfl

/-- A text after which no name goes on: there is a seam before it. -/
private theorem seam_of_leadingName_eq_nil (a : List Char) {b : List Char} (h : leadingName b = []) :
    Seam a b := by
  cases b with
  | nil => exact .last a
  | cons d b =>
    have hd : isDelimiter d = true := by simpa [leadingName, List.takeWhile_cons] using h
    exact .atStart a b d hd

/-- No name goes on after a name. -/
private theorem leadingName_afterName (cs : List Char) : leadingName (afterName cs) = [] := by
  rw [leadingName, List.takeWhile_eq_nil_iff]
  intro h
  exact List.dropWhile_get_zero_not _ _ h

/-- **A character that begins no placeholder** is not changed. -/
theorem expandChars_cons {c : Char} {cs : List Char} (h : ¬ (c = ':' ∧ leadingName cs ≠ [])) :
    expandChars params (c :: cs) = Expansion.append (.ok ([c], [])) (expandChars params cs) := by
  by_cases hdelimiter : isDelimiter c = true
  · exact (expandChars_append_delimiter params [] cs hdelimiter).trans (Expansion.empty_append _)
  · by_cases hcolon : c = ':'
    · subst hcolon
      have hname : leadingName cs = [] := by simpa using h
      exact expandChars_append params (seam_of_leadingName_eq_nil [':'] hname)
    · have hwords : Words.ofChars (c :: cs) =
          ⟨c :: (Words.ofChars cs).first, (Words.ofChars cs).rest⟩ := by
        have hcons : Words.ofChars (c :: cs) = Words.cons c (Words.ofChars cs) := rfl
        rw [hcons, Words.cons, if_neg hdelimiter]
      rw [expandChars_eq, hwords, expandWord_cons params hcolon, Expansion.append_assoc,
        ← expandChars_eq]

/-- **A placeholder at the front of a text** is replaced by what its name expands to. -/
theorem expandChars_colon_cons {cs : List Char} (h : leadingName cs ≠ []) :
    expandChars params (':' :: cs) =
      Expansion.append (expandName params (String.ofList (leadingName cs)))
        (expandChars params (afterName cs)) := by
  have hplain : ∀ c ∈ leadingName cs, isDelimiter c = false := fun c hc => by
    simpa using List.mem_takeWhile_imp hc
  have hseam : Seam (':' :: leadingName cs) (afterName cs) :=
    seam_of_leadingName_eq_nil _ (leadingName_afterName cs)
  rw [← expandChars_placeholder params h hplain, ← expandChars_append params hseam,
    List.cons_append, leadingName_append_afterName]

/-- **An expansion, read off the pieces of the text**: the first placeholder that cannot be bound is
the error; if there is none, every placeholder is replaced and everything else is kept.

**Proof sketch.** Induction on what is read. One piece is expanded on its own, since no name goes on
after a placeholder. -/
theorem expandChars_eq_scan (cs : List Char) : expandChars params cs =
    match ((scan cs).filterMap Piece.name?).findSome? (bindError? params) with
    | some e => .error e
    | none => .ok ((scan cs).flatMap (Piece.bound params), (scan cs).flatMap (Piece.values params)) := by
  induction cs using scan.induct with
  | case1 => rw [scan]; rfl
  | case2 c cs h ih =>
    rw [scan, if_pos h, h.1, expandChars_colon_cons params h.2, expandName_eq, ih]
    simp only [List.filterMap_cons, Piece.name?, List.findSome?_cons, List.flatMap_cons]
    cases bindError? params (String.ofList (leadingName cs)) with
    | some e => rfl
    | none =>
      generalize ((scan (afterName cs)).filterMap Piece.name?).findSome? (bindError? params) = found
      cases found <;> rfl
  | case3 c cs h ih =>
    rw [scan, if_neg h, expandChars_cons params h, ih]
    simp only [List.filterMap_cons, Piece.name?, List.flatMap_cons]
    generalize ((scan cs).filterMap Piece.name?).findSome? (bindError? params) = found
    cases found <;> rfl

end

/-! ## Errors -/

/-- **Expansion works piecewise, errors included.** Around a delimiter a statement is expanded on its
left and on its right: an error on the left comes first, then one on the right, and otherwise the two
results are joined by the delimiter. So the error of a statement is that of its leftmost placeholder
that has no value or an empty list, and there is none exactly if there is no such placeholder.

**Proof sketch.** A delimiter is no part of a word, so the words of the statement are those of its two
parts. The reading from left to right finds the placeholders in the same order. -/
theorem expand_piecewise (params : FieldMap Json) :
    (∀ (a b : String) (d : Char), isDelimiter d = true →
      expand params (a ++ String.singleton d ++ b) =
        match expand params a, expand params b with
        | .error e, _ => .error e
        | .ok _, .error e => .error e
        | .ok r, .ok r' => .ok ⟨r.sql ++ String.singleton d ++ r'.sql, r.values ++ r'.values⟩) ∧
    ∀ (sql : String) (e : BindError),
      expand params sql = .error e ↔ (placeholders sql).findSome? (bindError? params) = some e := by
  refine ⟨fun a b d hd => ?_, fun sql e => ?_⟩
  · have htext : (a ++ String.singleton d ++ b).toList = a.toList ++ d :: b.toList := by simp
    rw [expand_eq_map, expand_eq_map, expand_eq_map, htext,
      expandChars_append_delimiter params a.toList b.toList hd]
    cases expandChars params a.toList with
    | error e => rfl
    | ok r =>
      cases expandChars params b.toList with
      | error e => rfl
      | ok r' =>
        refine congrArg (fun s => Except.ok (BoundStatement.mk s _)) ?_
        rw [← String.toList_inj]
        simp
  · rw [expand_eq_map, expandChars_eq_scan, placeholders]
    generalize ((scan sql.toList).filterMap Piece.name?).findSome? (bindError? params) = found
    cases found <;> simp [Except.map]

/-- Around a blank that is none of ASCII: two results are joined by it. The empty list on the right is
reported, unless a placeholder on the left has no value. A colon on its own is no placeholder. -/
theorem expand_piecewise_noBreakSpace :
    let params : FieldMap Json :=
      .ofList [("n", .num (.int 1)), ("ids", .arr []), ("tags", .arr [.str "x", .null])]
    expand params ("a = :n" ++ String.singleton '\u00a0' ++ "b: (:tags)") =
        .ok ⟨"a = ?" ++ String.singleton '\u00a0' ++ "b: (?, ?)", [.num (.int 1), .str "x", .null]⟩ ∧
      expand params ("a = :n" ++ String.singleton '\u00a0' ++ "b: (:ids)") =
        .error (.emptyList "ids") ∧
      expand params ("a = :m" ++ String.singleton '\u00a0' ++ "b: (:ids)") =
        .error (.unknownParameter "m") := by
  intro params
  obtain ⟨hjoined, hfirst⟩ := expand_piecewise params
  have hleft : expand params "a = :n" = .ok ⟨"a = ?", [.num (.int 1)]⟩ := rfl
  have hright : expand params "b: (:tags)" = .ok ⟨"b: (?, ?)", [.str "x", .null]⟩ := rfl
  have hempty : expand params "b: (:ids)" = .error (.emptyList "ids") := rfl
  refine ⟨?_, ?_, (hfirst _ _).mpr (by decide +kernel)⟩
  · rw [hjoined _ _ _ (by decide), hleft, hright]
    rfl
  · rw [hjoined _ _ _ (by decide), hleft, hempty]

/-! ## Results -/

/-- Question marks are separated by a comma and a blank. -/
private theorem marks_succ_succ (n : Nat) : marks (n + 2) = '?' :: ',' :: ' ' :: marks (n + 1) := by
  simp [marks, List.replicate_succ, List.intercalate_cons_cons]

/-- There are as many question marks as values. -/
theorem count_marks (n : Nat) : (marks n).count '?' = n := by
  induction n with
  | zero => rfl
  | succ n ih =>
    cases n with
    | zero => rfl
    | succ n => simp [marks_succ_succ, ih]

/-- Question marks have no colon. -/
theorem colon_notMem_marks (n : Nat) : ':' ∉ marks n := by
  induction n with
  | zero => simp [marks]
  | succ n ih =>
    cases n with
    | zero => simp [marks]
    | succ n => simp [marks_succ_succ, ih]

/-- The pieces of a text are the text. -/
theorem flatMap_chars_scan (cs : List Char) : (scan cs).flatMap Piece.chars = cs := by
  induction cs using scan.induct with
  | case1 => rw [scan]; rfl
  | case2 c cs h ih =>
    rw [scan, if_pos h, List.flatMap_cons, ih, h.1]
    simp [Piece.chars, placeholder, leadingName_append_afterName]
  | case3 c cs h ih =>
    rw [scan, if_neg h, List.flatMap_cons, ih]
    rfl

/-- A text in which no placeholder begins consists of its characters. -/
theorem scan_of_inert {cs : List Char} (h : Inert cs) : scan cs = cs.map .char := by
  induction cs using scan.induct with
  | case1 => rw [scan]; rfl
  | case2 c cs hname ih =>
    obtain ⟨rfl, hne⟩ := hname
    cases cs with
    | nil => exact absurd rfl hne
    | cons d cs =>
      have hd : isDelimiter d = true := (List.isChain_cons_cons.mp h).1 rfl
      simp [leadingName, hd] at hne
  | case3 c cs hname ih => rw [scan, if_neg hname, ih h.tail, List.map_cons]

section

variable (params : FieldMap Json)

/-- What follows a colon that begins no placeholder is still the first thing after it. -/
private theorem head?_flatMap_bound {cs : List Char} (h : leadingName cs = []) :
    ((scan cs).flatMap (Piece.bound params)).head? = cs.head? := by
  cases cs with
  | nil => rw [scan]; rfl
  | cons d cs =>
    have hd : isDelimiter d = true := by simpa [leadingName, List.takeWhile_cons] using h
    have hcolon : d ≠ ':' := by
      rintro rfl
      exact absurd hd (by decide)
    rw [scan, if_neg fun h => hcolon h.1]
    rfl

/-- **No placeholder begins in what is written.**

**Proof sketch.** Induction on what is read. Question marks have no colon, and a colon that began no
placeholder is followed by the delimiter that followed it before, or by nothing. -/
theorem inert_flatMap_bound (cs : List Char) : Inert ((scan cs).flatMap (Piece.bound params)) := by
  induction cs using scan.induct with
  | case1 => rw [scan]; exact .nil
  | case2 c cs h ih =>
    rw [scan, if_pos h, List.flatMap_cons]
    refine Inert.append (Inert.of_noColon (colon_notMem_marks _)) ih fun hlast => ?_
    exact colon_notMem_marks _ (List.mem_of_getLast? hlast)
  | case3 c cs h ih =>
    rw [scan, if_neg h, List.flatMap_cons]
    refine List.IsChain.cons ih fun d hd hcolon => ?_
    have hname : leadingName cs = [] := by simpa [hcolon] using h
    have hhead : cs.head? = some d := (head?_flatMap_bound params hname).symm.trans hd
    cases cs with
    | nil => simp at hhead
    | cons d' cs =>
      obtain rfl : d' = d := by simpa using hhead
      simpa [leadingName, List.takeWhile_cons] using hname

/-- Pieces without question marks are written with one for each of their values. -/
theorem count_flatMap_bound {pieces : List Piece} (h : ∀ p ∈ pieces, '?' ∉ p.chars) :
    (pieces.flatMap (Piece.bound params)).count '?' = (pieces.flatMap (Piece.values params)).length := by
  induction pieces with
  | nil => rfl
  | cons p pieces ih =>
    have hpiece : (p.bound params).count '?' = (p.values params).length := by
      cases p with
      | char c => exact List.count_eq_zero.mpr (h (.char c) List.mem_cons_self)
      | placeholder name => exact count_marks _
    rw [List.flatMap_cons, List.flatMap_cons, List.count_append, List.length_append, hpiece,
      ih fun p hp => h p (List.mem_cons_of_mem _ hp)]

end

/-- **An expanded statement is complete.** Let a statement expand to a text and values.

- The text has no placeholder, and expanding it with any parameters changes nothing and binds nothing.
- If the statement has no question mark, the text has as many as there are values.
- The statement is made of characters and placeholders, from left to right. The text is made of the same
  characters, in the same order, with question marks in the places of the placeholders, one for each value
  of the placeholder; and the values are those of the placeholders.

**Proof sketch.** The result is read off the pieces of the statement. In what is written for them no
placeholder begins. -/
theorem expand_complete (params : FieldMap Json) (sql : String) (r : BoundStatement)
    (h : expand params sql = .ok r) :
    let pieces := scan sql.toList
    (placeholders r.sql = [] ∧
      ∀ others : FieldMap Json, expand others r.sql = .ok ⟨r.sql, []⟩) ∧
    ('?' ∉ sql.toList → r.sql.toList.count '?' = r.values.length) ∧
    sql.toList = pieces.flatMap Piece.chars ∧ r.sql.toList = pieces.flatMap (Piece.bound params) ∧
    r.values = pieces.flatMap (Piece.values params) := by
  intro pieces
  have hchars : sql.toList = pieces.flatMap Piece.chars := (flatMap_chars_scan sql.toList).symm
  obtain ⟨hsql, hvalues⟩ : r.sql.toList = pieces.flatMap (Piece.bound params) ∧
      r.values = pieces.flatMap (Piece.values params) := by
    rw [expand_eq_map, expandChars_eq_scan] at h
    split at h
    · simp [Except.map] at h
    · rw [← Except.ok.inj h]
      exact ⟨String.toList_ofList, rfl⟩
  have hinert : Inert r.sql.toList := hsql ▸ inert_flatMap_bound params sql.toList
  refine ⟨⟨?_, fun others => ?_⟩, fun hmark => ?_, hchars, hsql, hvalues⟩
  · rw [placeholders, scan_of_inert hinert, List.filterMap_map]
    exact List.filterMap_eq_nil_iff.mpr fun _ _ => rfl
  · rw [expand_eq_map, expandChars_of_inert others hinert]
    simp [Except.map]
  · rw [hsql, hvalues]
    refine count_flatMap_bound params fun p hp hmem => hmark ?_
    rw [hchars]
    exact List.mem_flatMap.mpr ⟨p, hp, hmem⟩

/-- Colons without a name stand beside parentheses and commas, and a list becomes two question marks. -/
theorem expand_complete_loneColons :
    expand (.ofList [("ids", .arr [.bool true, .bool false]), (":", .null)])
        "f(:, a:)b: (x:ids), ::" =
        .ok ⟨"f(:, a:)b: (x?, ?), ?", [.bool true, .bool false, .null]⟩ ∧
      expand .empty "f(:, a:)b: (x?, ?), ?" = .ok ⟨"f(:, a:)b: (x?, ?), ?", []⟩ := by
  have hexpand : expand (.ofList [("ids", .arr [.bool true, .bool false]), (":", .null)])
      "f(:, a:)b: (x:ids), ::" =
        .ok ⟨"f(:, a:)b: (x?, ?), ?", [.bool true, .bool false, .null]⟩ := rfl
  obtain ⟨⟨-, hagain⟩, -⟩ := expand_complete _ _ _ hexpand
  exact ⟨hexpand, hagain .empty⟩

end SqlFilter
