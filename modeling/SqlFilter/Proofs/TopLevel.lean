import SqlFilter.Predicate

set_option relaxedAutoImplicit false
set_option autoImplicit false

/-!
# Conditions cut at their top level

A condition can be cut where a separator stands in no parentheses. In a condition that consists of
groups in parentheses, each behind any number of negations, with separators between them, the pieces
are exactly these groups.

## Design

The text is read once from the left, with the number of parentheses that are open. A separator is
longer than one character, so the reading also counts how many characters of it are still to be
skipped; this makes it a recursion on the text.

## Main definitions

* `Text.openAfter?`, `Text.IsBalanced` — the parentheses that a text leaves open, and texts whose
  parentheses all match.
* `Text.IsNegatedGroup` — a group in parentheses behind any number of negations.
* `Pieces`, `Pieces.ofChars` — a text cut at its top level.

## Main results

* `Text.IsBalanced.openAfter?_eq` — a balanced text leaves open what was open before it.
* `Pieces.ofChars_chars` — groups with separators between them are what their text is cut into.
-/

namespace SqlFilter

/-! ## Parentheses -/

namespace Text

/-- The number of open parentheses after a character. A parenthesis that is not open cannot be
closed. -/
def nextDepth? (depth : Nat) (c : Char) : Option Nat :=
  if c = '(' then some (depth + 1)
  else if c = ')' then if depth = 0 then none else some (depth - 1)
  else some depth

/-- The number of open parentheses after a text, if `depth` of them are open before it. -/
def openAfter? (depth : Nat) (cs : List Char) : Option Nat := cs.foldlM nextDepth? depth

/-- Every parenthesis of a text is closed behind the place where it is opened. -/
def IsBalanced (cs : List Char) : Prop := openAfter? 0 cs = some 0

instance (cs : List Char) : Decidable (IsBalanced cs) :=
  inferInstanceAs (Decidable (openAfter? 0 cs = some 0))

/-- A text has no parentheses. -/
def IsFlat (cs : List Char) : Prop := ∀ c ∈ cs, c ≠ '(' ∧ c ≠ ')'

instance (cs : List Char) : Decidable (IsFlat cs) :=
  List.decidableBAll (fun c => c ≠ '(' ∧ c ≠ ')') cs

/-- Zero or more negations, followed by one group in parentheses. -/
inductive IsNegatedGroup : List Char → Prop
  | group {inner : List Char} (h : IsBalanced inner) : IsNegatedGroup ('(' :: (inner ++ [')']))
  | not {piece : List Char} (h : IsNegatedGroup piece) : IsNegatedGroup ("NOT ".toList ++ piece)

@[simp] theorem openAfter?_nil (depth : Nat) : openAfter? depth [] = some depth := rfl

/-- Reading a text goes on after its first character. -/
theorem openAfter?_cons (depth : Nat) (c : Char) (cs : List Char) :
    openAfter? depth (c :: cs) = (nextDepth? depth c).bind fun next => openAfter? next cs := rfl

/-- The parentheses that two texts in a row leave open. -/
theorem openAfter?_append (depth : Nat) (a b : List Char) :
    openAfter? depth (a ++ b) = (openAfter? depth a).bind fun next => openAfter? next b :=
  List.foldlM_append

/-- One more parenthesis that is open before a character is open after it, too. -/
theorem nextDepth?_succ {depth next : Nat} {c : Char} (h : nextDepth? depth c = some next) :
    nextDepth? (depth + 1) c = some (next + 1) := by
  unfold nextDepth? at h ⊢
  by_cases hopening : c = '('
  · simpa [hopening] using h
  · by_cases hclosing : c = ')'
    · by_cases hdepth : depth = 0
      · simp [hclosing, hdepth] at h
      · have hnext : depth - 1 = next := by simpa [hclosing, hdepth] using h
        simp only [hclosing, Char.reduceEq, Nat.add_one_ne_zero, ↓reduceIte, Option.some_inj]
        omega
    · simpa [hopening, hclosing] using h

/-- **One more parenthesis** that is open before a text is open after it, too. -/
theorem openAfter?_succ {depth next : Nat} {cs : List Char} (h : openAfter? depth cs = some next) :
    openAfter? (depth + 1) cs = some (next + 1) := by
  induction cs generalizing depth with
  | nil =>
    rw [openAfter?_nil, Option.some_inj] at h
    rw [openAfter?_nil, h]
  | cons c cs ih =>
    rw [openAfter?_cons, Option.bind_eq_some_iff] at h
    obtain ⟨between, hc, hcs⟩ := h
    rw [openAfter?_cons, nextDepth?_succ hc]
    exact ih hcs

/-- **A balanced text leaves open what was open before it.** -/
theorem IsBalanced.openAfter?_eq {cs : List Char} (h : IsBalanced cs) (depth : Nat) :
    openAfter? depth cs = some depth := by
  induction depth with
  | zero => exact h
  | succ depth ih => exact openAfter?_succ ih

/-- The empty text is balanced. -/
theorem IsBalanced.nil : IsBalanced [] := rfl

/-- Balanced texts are balanced together. -/
theorem IsBalanced.append {a b : List Char} (ha : IsBalanced a) (hb : IsBalanced b) :
    IsBalanced (a ++ b) := by
  rw [IsBalanced, openAfter?_append, ha.openAfter?_eq]
  exact hb

/-- A balanced text in parentheses is balanced. -/
theorem IsBalanced.parenthesized {cs : List Char} (h : IsBalanced cs) :
    IsBalanced ('(' :: (cs ++ [')'])) := by
  have hopened : openAfter? 1 (cs ++ [')']) = some 0 := by
    rw [openAfter?_append, h.openAfter?_eq]
    rfl
  exact hopened

/-- A text without parentheses is balanced. -/
theorem IsFlat.isBalanced {cs : List Char} (h : IsFlat cs) : IsBalanced cs := by
  induction cs with
  | nil => exact .nil
  | cons c cs ih =>
    obtain ⟨hc, hcs⟩ := List.forall_mem_cons.mp h
    have hnext : nextDepth? 0 c = some 0 := by simp [nextDepth?, hc]
    rw [IsBalanced, openAfter?_cons, hnext]
    exact ih hcs

/-- A negated group is balanced. -/
theorem IsNegatedGroup.isBalanced {cs : List Char} (h : IsNegatedGroup cs) : IsBalanced cs := by
  induction h with
  | group h => exact h.parenthesized
  | not h ih => exact IsBalanced.append (by decide) ih

end Text

/-! ## Cutting -/

/-- A text cut at its top level: the first piece, and then each separator with the piece behind it. -/
structure Pieces where
  first : List Char
  rest : List (Conjunction × List Char)

namespace Pieces

/-- All pieces. -/
def all (p : Pieces) : List (List Char) := p.first :: p.rest.map Prod.snd

/-- The separators between them. -/
def separators (p : Pieces) : List Conjunction := p.rest.map Prod.fst

/-- The text of pieces and separators. -/
def chars (p : Pieces) : List Char :=
  p.first ++ p.rest.flatMap fun r => r.1.separator.toList ++ r.2

/-- Pieces of which the first one has more text in front. -/
def prepend (cs : List Char) (p : Pieces) : Pieces := ⟨cs ++ p.first, p.rest⟩

/-- The conjunction whose separator a text starts with. -/
def separator? (cs : List Char) : Option Conjunction :=
  [Conjunction.and, .or].find? fun c => c.separator.toList.isPrefixOf cs

/-- Cuts a text. Its first `skipped` characters belong to a separator, and `depth` parentheses are
open. -/
def cut : Nat → Nat → List Char → Pieces
  | _, _, [] => ⟨[], []⟩
  | skipped + 1, depth, _ :: cs => cut skipped depth cs
  | 0, depth, c :: cs =>
    match if depth = 0 then separator? (c :: cs) else none with
    | some k =>
      let behind := cut (k.separator.length - 1) 0 cs
      ⟨[], (k, behind.first) :: behind.rest⟩
    | none => (cut 0 ((Text.nextDepth? depth c).getD 0) cs).prepend [c]

/-- Cuts a text at the separators that stand in no parentheses. -/
def ofChars (cs : List Char) : Pieces := cut 0 0 cs

@[simp] theorem ofChars_nil : ofChars [] = ⟨[], []⟩ := rfl

@[simp] theorem prepend_prepend (a b : List Char) (p : Pieces) :
    (p.prepend b).prepend a = p.prepend (a ++ b) := by
  simp [prepend]

/-- What starts a separator is a blank with the first letter of a keyword behind it. -/
theorem separator?_eq_none {c d : Char} (h : c ≠ ' ' ∨ d ≠ 'A' ∧ d ≠ 'O') (cs : List Char) :
    separator? (c :: d :: cs) = none := by
  have hand : Conjunction.and.separator.toList = [' ', 'A', 'N', 'D', ' '] := by decide
  have hor : Conjunction.or.separator.toList = [' ', 'O', 'R', ' '] := by decide
  rcases h with h | ⟨hA, hO⟩
  · simp [separator?, hand, hor, List.isPrefixOf, Ne.symm h]
  · simp [separator?, hand, hor, List.isPrefixOf, Ne.symm hA, Ne.symm hO]

/-- At the top level, a character that starts no separator and is no parenthesis belongs to the first
piece. -/
theorem ofChars_cons {c : Char} {cs : List Char} (h : separator? (c :: cs) = none)
    (hdepth : Text.nextDepth? 0 c = some 0) : ofChars (c :: cs) = (ofChars cs).prepend [c] := by
  rw [ofChars, cut, if_pos rfl, h]
  simp only [hdepth, Option.getD_some]
  rfl

/-- A separator is cut out. -/
theorem ofChars_separator (c : Conjunction) (rest : List Char) :
    ofChars (c.separator.toList ++ rest) =
      ⟨[], (c, (ofChars rest).first) :: (ofChars rest).rest⟩ := by
  cases c <;> rfl

/-- **Inside parentheses**, nothing is cut. -/
theorem cut_append_of_open {depth next : Nat} {cs : List Char}
    (h : Text.openAfter? depth cs = some next) (rest : List Char) :
    cut 0 (depth + 1) (cs ++ rest) = (cut 0 (next + 1) rest).prepend cs := by
  induction cs generalizing depth with
  | nil =>
    rw [Text.openAfter?_nil, Option.some_inj] at h
    rw [h]
    rfl
  | cons c cs ih =>
    rw [Text.openAfter?_cons, Option.bind_eq_some_iff] at h
    obtain ⟨between, hc, hcs⟩ := h
    rw [List.cons_append, cut, if_neg (Nat.succ_ne_zero depth), Text.nextDepth?_succ hc]
    simp only [Option.getD_some, ih hcs]
    rfl

/-- A group in parentheses is not cut. -/
theorem ofChars_group {inner : List Char} (h : Text.IsBalanced inner) (rest : List Char) :
    ofChars ('(' :: (inner ++ ')' :: rest)) = (ofChars rest).prepend ('(' :: (inner ++ [')'])) := by
  have hopen : ofChars ('(' :: (inner ++ ')' :: rest)) =
      (cut 0 1 (inner ++ ')' :: rest)).prepend ['('] := rfl
  have hclose : cut 0 1 (')' :: rest) = (ofChars rest).prepend [')'] := rfl
  rw [hopen, cut_append_of_open h, hclose, prepend_prepend, prepend_prepend]
  simp

/-- A negated group starts with a parenthesis or with a negation. -/
theorem exists_cons_of_isNegatedGroup {piece : List Char} (h : Text.IsNegatedGroup piece) :
    ∃ c cs, piece = c :: cs ∧ c ≠ 'A' ∧ c ≠ 'O' := by
  cases h with
  | group h => exact ⟨_, _, rfl, by decide, by decide⟩
  | not h => exact ⟨_, _, rfl, by decide, by decide⟩

/-- **A negated group** is not cut, whatever follows it.

**Proof sketch.** The blank behind `NOT` is followed by another `NOT` or by a parenthesis, so it
starts no separator. -/
theorem ofChars_append {piece : List Char} (h : Text.IsNegatedGroup piece) (rest : List Char) :
    ofChars (piece ++ rest) = (ofChars rest).prepend piece := by
  induction h with
  | @group inner h =>
    have hassoc : '(' :: (inner ++ [')']) ++ rest = '(' :: (inner ++ ')' :: rest) := by simp
    rw [hassoc, ofChars_group h]
  | @not piece h ih =>
    obtain ⟨c, cs, rfl, hc⟩ := exists_cons_of_isNegatedGroup h
    have hnot : ofChars ("NOT ".toList ++ (c :: cs ++ rest)) =
        (ofChars (c :: cs ++ rest)).prepend "NOT ".toList := by
      change ofChars ('N' :: 'O' :: 'T' :: ' ' :: c :: (cs ++ rest)) = _
      rw [ofChars_cons (separator?_eq_none (.inl (by decide)) _) (by decide),
        ofChars_cons (separator?_eq_none (.inl (by decide)) _) (by decide),
        ofChars_cons (separator?_eq_none (.inl (by decide)) _) (by decide),
        ofChars_cons (separator?_eq_none (.inr hc) _) (by decide)]
      simp
    rw [List.append_assoc, hnot, ih, prepend_prepend]

/-- **Groups with separators between them** are what their text is cut into. -/
theorem ofChars_chars {p : Pieces} (h : ∀ piece ∈ p.all, Text.IsNegatedGroup piece) :
    ofChars p.chars = p := by
  obtain ⟨first, rest⟩ := p
  induction rest generalizing first with
  | nil =>
    have hfirst := ofChars_append (h first (by simp [all])) []
    simpa [chars, prepend] using hfirst
  | cons r rest ih =>
    obtain ⟨c, piece⟩ := r
    have hrest := ih piece fun q hq => h q (by simp_all [all])
    have hchars : chars ⟨first, (c, piece) :: rest⟩ =
        first ++ (c.separator.toList ++ chars ⟨piece, rest⟩) := by
      simp [chars]
    rw [hchars, ofChars_append (h first (by simp [all])), ofChars_separator, hrest]
    simp [prepend]

/-- What stands in parentheses is not cut, and a separator has blanks around it. -/
example : ofChars "(a AND b) OR NOT (c) AND(d)".toList =
    ⟨"(a AND b)".toList, [(.or, "NOT (c) AND(d)".toList)]⟩ := by rfl

end Pieces

end SqlFilter
