import Mathlib.Data.List.Basic
import SqlFilter.Json.Reader

set_option relaxedAutoImplicit false
set_option autoImplicit false

/-!
# Open brackets of a text

How many brackets and braces of a JSON text are open at once can be told from its characters, without
reading the text: those inside strings do not count, and a backslash there takes the character after it
along. For a text that is read this number is the nesting of its document, whatever lists, objects and
blanks it is made of.

## Design

What is read of a text is a first part of it, so each step of the reader says how the count of what it
was given follows from the count of what it hands back. Blanks and numbers hold no bracket and no
quotation mark, and a string leaves the count as it was.

## Main definitions

* `Json.Document.nesting` — how many arrays and objects of a document are open at once.
* `Json.greatestOpen`, `Json.openBrackets` — the same for the brackets and braces of a text.

## Main results

* `Json.greatestOpen_readString`, `Json.greatestOpen_readLiteral` — strings and numbers open no brackets.
* `Json.Document.greatestOpen_readValue` — what a document adds to the brackets of its text.
* `Json.Document.openBrackets_eq_nesting` — a text that is read has the nesting of its document.
-/

namespace SqlFilter.Json

/-! ## Documents -/

namespace Document

mutual

/-- How many arrays and objects of a document are open at once. -/
def nesting : Document → Nat
  | .null | .bool _ | .num _ | .str _ => 0
  | .arr items => 1 + itemNesting items
  | .obj members => 1 + memberNesting members

/-- The greatest nesting of the items of an array. -/
def itemNesting : List Document → Nat
  | [] => 0
  | d :: rest => max d.nesting (itemNesting rest)

/-- The greatest nesting of the members of an object. -/
def memberNesting : List (Option String × Document) → Nat
  | [] => 0
  | (_, d) :: rest => max d.nesting (memberNesting rest)

end

end Document

/-! ## Texts -/

/-- Where a character stands: outside of strings, in a string, or in a string after a backslash. -/
inductive Mode where
  | outside
  | inside
  | escaped
deriving DecidableEq

/-- Where the next character stands. -/
def Mode.next : Mode → Char → Mode
  | .outside, c => if c = '"' then .inside else .outside
  | .inside, c => if c = '"' then .outside else if c = '\\' then .escaped else .inside
  | .escaped, _ => .inside

/-- How many brackets and braces are open after a character. -/
def openAfter (mode : Mode) (opened : Nat) (c : Char) : Nat :=
  if mode = .outside then
    if c = '[' ∨ c = '\x7b' then opened + 1
    else if c = ']' ∨ c = '\x7d' then opened - 1
    else opened
  else opened

/-- The greatest number of brackets and braces that are open at once from a place on, where some are
open already. -/
def greatestOpen (mode : Mode) (opened : Nat) : List Char → Nat
  | [] => opened
  | c :: cs => max opened (greatestOpen (mode.next c) (openAfter mode opened c) cs)

/-- The greatest number of brackets and braces of a text that are open at once. -/
def openBrackets (text : String) : Nat := greatestOpen .outside 0 text.toList

/-! ## Characters that open and close nothing -/

/-- What is open already counts. -/
theorem le_greatestOpen (mode : Mode) (n : Nat) (cs : List Char) : n ≤ greatestOpen mode n cs := by
  cases cs with
  | nil => exact Nat.le_refl n
  | cons c cs => exact Nat.le_max_left _ _

/-- A character is neither a bracket nor a brace nor a quotation mark. -/
def isNeutral (c : Char) : Bool :=
  c ≠ '[' && c ≠ ']' && c ≠ '\x7b' && c ≠ '\x7d' && c ≠ '"'

section

variable (n : Nat) (cs : List Char)

/-- A neutral character changes nothing. -/
theorem greatestOpen_of_isNeutral {c : Char} (h : isNeutral c = true) :
    greatestOpen .outside n (c :: cs) = greatestOpen .outside n cs := by
  simp only [isNeutral, Bool.and_eq_true, decide_eq_true_eq] at h
  obtain ⟨⟨⟨⟨hopen, hclose⟩, hopen'⟩, hclose'⟩, hquote⟩ := h
  simp [greatestOpen, Mode.next, openAfter, hopen, hclose, hopen', hclose', hquote,
    le_greatestOpen]

/-- A quotation mark starts a string. -/
theorem greatestOpen_quote : greatestOpen .outside n ('"' :: cs) = greatestOpen .inside n cs :=
  Nat.max_eq_right (le_greatestOpen .inside n cs)

/-- An opening bracket counts. -/
theorem greatestOpen_opening {c : Char} (h : c = '[' ∨ c = '\x7b') :
    greatestOpen .outside n (c :: cs) = greatestOpen .outside (n + 1) cs := by
  have hle := le_greatestOpen .outside (n + 1) cs
  rcases h with rfl | rfl
  · exact Nat.max_eq_right (Nat.le_of_succ_le hle)
  · exact Nat.max_eq_right (Nat.le_of_succ_le hle)

/-- A closing bracket ends what an opening one started. -/
theorem greatestOpen_closing {c : Char} (h : c = ']' ∨ c = '\x7d') :
    greatestOpen .outside (n + 1) (c :: cs) = max (n + 1) (greatestOpen .outside n cs) := by
  rcases h with rfl | rfl <;> rfl

/-- In a string a character other than a quotation mark and a backslash changes nothing. -/
theorem greatestOpen_inside {c : Char} (hquote : c ≠ '"') (hbackslash : c ≠ '\\') :
    greatestOpen .inside n (c :: cs) = greatestOpen .inside n cs := by
  simp [greatestOpen, Mode.next, openAfter, hquote, hbackslash, le_greatestOpen]

/-- A backslash and the character after it change nothing. -/
theorem greatestOpen_backslash (c : Char) :
    greatestOpen .inside n ('\\' :: c :: cs) = greatestOpen .inside n cs := by
  simp [greatestOpen, Mode.next, openAfter, le_greatestOpen]

/-- The quotation mark at its end leaves a string. -/
theorem greatestOpen_endQuote :
    greatestOpen .inside n ('"' :: cs) = greatestOpen .outside n cs :=
  Nat.max_eq_right (le_greatestOpen .outside n cs)

/-- Neutral characters in a row change nothing. -/
theorem greatestOpen_append {a : List Char} (h : a.all isNeutral = true) :
    greatestOpen .outside n (a ++ cs) = greatestOpen .outside n cs := by
  induction a with
  | nil => rfl
  | cons c a ih =>
    obtain ⟨hc, ha⟩ := Bool.and_eq_true_iff.mp h
    rw [List.cons_append, greatestOpen_of_isNeutral n _ hc, ih ha]

/-- Neutral characters at the start of a text change nothing. -/
theorem greatestOpen_dropWhile {p : Char → Bool} (h : ∀ c, p c = true → isNeutral c = true) :
    greatestOpen .outside n (cs.dropWhile p) = greatestOpen .outside n cs := by
  have hneutral : (cs.takeWhile p).all isNeutral = true :=
    List.all_eq_true.mpr fun c hc => h c (List.all_eq_true.mp List.all_takeWhile c hc)
  rw [← greatestOpen_append n _ hneutral, List.takeWhile_append_dropWhile]

/-- Blanks open nothing. -/
theorem greatestOpen_skipSpace :
    greatestOpen .outside n (skipSpace cs) = greatestOpen .outside n cs := by
  refine greatestOpen_dropWhile n cs fun c hspace => ?_
  simp only [isSpace, Bool.or_eq_true, decide_eq_true_eq] at hspace
  rcases hspace with ((rfl | rfl) | rfl) | rfl <;> decide

/-- Digits open nothing. -/
theorem greatestOpen_readDigits :
    greatestOpen .outside n (readDigits cs).2 = greatestOpen .outside n cs := by
  refine greatestOpen_dropWhile n cs fun c hdigit => ?_
  have hne (x : Char) (hx : x.isDigit = false) : c ≠ x := by
    rintro rfl
    exact absurd hdigit (by simp [hx])
  simp [isNeutral, hne '[' (by decide), hne ']' (by decide), hne '\x7b' (by decide),
    hne '\x7d' (by decide), hne '"' (by decide)]

end

/-! ## Strings and numbers -/

/-- A hexadecimal digit is neither a quotation mark nor a backslash. -/
theorem ne_of_hexValue? {c : Char} (h : (hexValue? c).isSome) : c ≠ '"' ∧ c ≠ '\\' := by
  constructor
  · rintro rfl
    exact absurd h (by decide)
  · rintro rfl
    exact absurd h (by decide)

/-- The four digits of a unit are hexadecimal. -/
theorem isSome_hexValue?_of_unitValue? {a b c d : Char} {u : Nat} (h : unitValue? a b c d = some u) :
    (hexValue? a).isSome ∧ (hexValue? b).isSome ∧ (hexValue? c).isSome ∧ (hexValue? d).isSome := by
  rw [unitValue?] at h
  cases ha : hexValue? a <;> cases hb : hexValue? b <;> cases hc : hexValue? c <;>
    cases hd : hexValue? d <;> simp [ha, hb, hc, hd] at h ⊢

/-- The pieces of a string leave the count as it was.

**Proof sketch.** Induction on the pieces. An escaped character and the four digits of a code unit
are neither a quotation mark nor a backslash, so the count stays inside the string until the mark at
its end. -/
theorem greatestOpen_readPieces (n : Nat) {read pieces : List Piece} {cs rest : List Char}
    (h : readPieces read cs = some (pieces, rest)) :
    greatestOpen .inside n cs = greatestOpen .outside n rest := by
  fun_induction readPieces read cs with
  | case1 => simp at h
  | case2 read rest' =>
    obtain ⟨-, rfl⟩ := Prod.mk.inj (Option.some.inj h)
    exact greatestOpen_endQuote n _
  | case3 => simp at h
  | case4 read a b c d rest' u hu ih =>
    obtain ⟨ha, hb, hc, hd⟩ := isSome_hexValue?_of_unitValue? hu
    rw [greatestOpen_backslash, greatestOpen_inside n _ (ne_of_hexValue? ha).1 (ne_of_hexValue? ha).2,
      greatestOpen_inside n _ (ne_of_hexValue? hb).1 (ne_of_hexValue? hb).2,
      greatestOpen_inside n _ (ne_of_hexValue? hc).1 (ne_of_hexValue? hc).2,
      greatestOpen_inside n _ (ne_of_hexValue? hd).1 (ne_of_hexValue? hd).2]
    exact ih h
  | case5 => simp at h
  | case6 read c rest' _ c' hc' ih =>
    rw [greatestOpen_backslash]
    exact ih h
  | case7 => simp at h
  | case8 read c rest' hquote _ _ hc ih =>
    rw [greatestOpen_inside n _ (fun heq => hquote heq) fun heq => hc (.inr heq)]
    exact ih h

/-- **A string opens no brackets**, whatever stands in it. -/
theorem greatestOpen_readString (n : Nat) {cs rest : List Char} {s : Option String}
    (h : readString cs = some (s, rest)) :
    greatestOpen .inside n cs = greatestOpen .outside n rest := by
  obtain ⟨⟨pieces, rest'⟩, hpieces, hsplit⟩ := Option.map_eq_some_iff.mp h
  obtain ⟨-, rfl⟩ := Prod.mk.inj hsplit
  exact greatestOpen_readPieces n hpieces

section

variable (n : Nat) {cs rest : List Char}

/-- The digits before the point open nothing. -/
theorem greatestOpen_readWhole {digits : List Nat} (h : readWhole cs = some (digits, rest)) :
    greatestOpen .outside n cs = greatestOpen .outside n rest := by
  have hdigits := greatestOpen_readDigits n cs
  rw [readWhole] at h
  split at h
  · simp at h
  · simp at h
  · rename_i digits' rest' _ _ hread
    obtain ⟨-, rfl⟩ := Prod.mk.inj (Option.some.inj h)
    rw [← hdigits, hread]

/-- A point and the digits after it open nothing. -/
theorem greatestOpen_readFraction {digits : List Nat}
    (h : readFraction cs = some (digits, rest)) :
    greatestOpen .outside n cs = greatestOpen .outside n rest := by
  unfold readFraction at h
  split at h
  · rename_i cs'
    dsimp only at h
    split at h
    · simp at h
    · obtain ⟨-, rfl⟩ := Prod.mk.inj (Option.some.inj h)
      rw [greatestOpen_of_isNeutral n _ (by decide), greatestOpen_readDigits]
  · obtain ⟨-, rfl⟩ := Prod.mk.inj (Option.some.inj h)
    rfl

/-- The digits of an exponent open nothing. -/
theorem greatestOpen_readPower {negative : Bool} {exponent : Option Int}
    (h : readPower negative cs = some (exponent, rest)) :
    greatestOpen .outside n cs = greatestOpen .outside n rest := by
  unfold readPower at h
  dsimp only at h
  split at h
  · simp at h
  · obtain ⟨-, rfl⟩ := Prod.mk.inj (Option.some.inj h)
    rw [greatestOpen_readDigits]

/-- An exponent opens nothing. -/
theorem greatestOpen_readExponent {exponent : Option Int}
    (h : readExponent cs = some (exponent, rest)) :
    greatestOpen .outside n cs = greatestOpen .outside n rest := by
  have hpower {negative : Bool} {c : Char} {cs' : List Char} (hc : isNeutral c = true)
      (h : readPower negative cs' = some (exponent, rest)) :
      greatestOpen .outside n (c :: cs') = greatestOpen .outside n rest := by
    rw [greatestOpen_of_isNeutral n _ hc, greatestOpen_readPower n h]
  have hsigned {negative : Bool} {c sign : Char} {cs' : List Char} (hc : isNeutral c = true)
      (hsign : isNeutral sign = true) (h : readPower negative cs' = some (exponent, rest)) :
      greatestOpen .outside n (c :: sign :: cs') = greatestOpen .outside n rest := by
    rw [greatestOpen_of_isNeutral n _ hc, hpower hsign h]
  unfold readExponent at h
  split at h
  · exact hsigned (by decide) (by decide) h
  · exact hsigned (by decide) (by decide) h
  · exact hsigned (by decide) (by decide) h
  · exact hsigned (by decide) (by decide) h
  · exact hpower (by decide) h
  · exact hpower (by decide) h
  · obtain ⟨-, rfl⟩ := Prod.mk.inj (Option.some.inj h)
    rfl

/-- A number without its sign opens nothing. -/
theorem greatestOpen_readUnsigned {negative : Bool} {l : Literal}
    (h : readUnsigned negative cs = some (l, rest)) :
    greatestOpen .outside n cs = greatestOpen .outside n rest := by
  obtain ⟨⟨whole, afterWhole⟩, hwhole, h⟩ := Option.bind_eq_some_iff.mp h
  obtain ⟨⟨fraction, afterFraction⟩, hfraction, h⟩ := Option.bind_eq_some_iff.mp h
  obtain ⟨⟨exponent, afterExponent⟩, hexponent, h⟩ := Option.bind_eq_some_iff.mp h
  obtain ⟨-, rfl⟩ := Prod.mk.inj (Option.some.inj h)
  rw [greatestOpen_readWhole n hwhole, greatestOpen_readFraction n hfraction,
    greatestOpen_readExponent n hexponent]

/-- **A number opens no brackets.** -/
theorem greatestOpen_readLiteral {l : Literal} (h : readLiteral cs = some (l, rest)) :
    greatestOpen .outside n cs = greatestOpen .outside n rest := by
  unfold readLiteral at h
  split at h
  · rw [greatestOpen_of_isNeutral n _ (by decide), greatestOpen_readUnsigned n h]
  · exact greatestOpen_readUnsigned n h

end

/-! ## Documents in their texts -/

namespace Document

/-- What the reader makes of the brackets of its text, with a number of steps: what it reads opens as many
as the nesting of it, and what it hands back opens the others. Of an array or object that is open the rest
is read, so its own bracket is counted already. -/
structure CountsBrackets (steps : Nat) : Prop where
  value : ∀ n cs d rest, readValue steps cs = some (d, rest) →
    greatestOpen .outside n cs = max (n + d.nesting) (greatestOpen .outside n rest)
  items : ∀ n read cs d rest, readItems steps read cs = some (d, rest) →
    ∃ items, d = .arr (read.reverse ++ items) ∧ greatestOpen .outside (n + 1) cs =
      max (n + 1 + itemNesting items) (greatestOpen .outside n rest)
  members : ∀ n read cs d rest, readMembers steps read cs = some (d, rest) →
    ∃ members, d = .obj (read.reverse ++ members) ∧ greatestOpen .outside (n + 1) cs =
      max (n + 1 + memberNesting members) (greatestOpen .outside n rest)

namespace CountsBrackets

variable {steps : Nat} (ih : CountsBrackets steps)

include ih in
/-- Reading a document counts its brackets if reading the parts of arrays and objects does.

**Proof sketch.** One case for each kind of document. A word, a string and a number have no bracket
outside a string, so the count goes on behind them unchanged. An array or an object opens one
bracket. If it is empty the bracket is closed at once, and otherwise the hypothesis on its items or
members counts the rest. -/
private theorem readValue_succ (n : Nat) (cs : List Char) (d : Document) (rest : List Char)
    (h : readValue (steps + 1) cs = some (d, rest)) :
    greatestOpen .outside n cs = max (n + d.nesting) (greatestOpen .outside n rest) := by
  have hleaf (hopen : greatestOpen .outside n (skipSpace cs) = greatestOpen .outside n rest)
      (hnesting : d.nesting = 0) :
      greatestOpen .outside n cs = max (n + d.nesting) (greatestOpen .outside n rest) := by
    rw [← greatestOpen_skipSpace, hopen, hnesting]
    exact (Nat.max_eq_right (le_greatestOpen .outside n rest)).symm
  have hword (a : List Char) (ha : a.all isNeutral = true) (hcs : skipSpace cs = a ++ rest)
      (hnesting : d.nesting = 0) :
      greatestOpen .outside n cs = max (n + d.nesting) (greatestOpen .outside n rest) :=
    hleaf (hcs ▸ greatestOpen_append n rest ha) hnesting
  rw [readValue] at h
  split at h
  · -- `null`
    rename_i hcs
    obtain ⟨rfl, rfl⟩ := Prod.mk.inj (Option.some.inj h)
    exact hword ['n', 'u', 'l', 'l'] (by decide) hcs rfl
  · -- `true`
    rename_i hcs
    obtain ⟨rfl, rfl⟩ := Prod.mk.inj (Option.some.inj h)
    exact hword ['t', 'r', 'u', 'e'] (by decide) hcs rfl
  · -- `false`
    rename_i hcs
    obtain ⟨rfl, rfl⟩ := Prod.mk.inj (Option.some.inj h)
    exact hword ['f', 'a', 'l', 's', 'e'] (by decide) hcs rfl
  · -- a string
    rename_i rest' hcs
    split at h
    · simp at h
    · rename_i s rest'' hstring
      obtain ⟨rfl, rfl⟩ := Prod.mk.inj (Option.some.inj h)
      refine hleaf ?_ rfl
      rw [hcs, greatestOpen_quote, greatestOpen_readString n hstring]
  · -- an array
    rename_i inner hcs
    rw [← greatestOpen_skipSpace, hcs, greatestOpen_opening n _ (.inl rfl)]
    split at h
    · rename_i rest' hinner
      obtain ⟨rfl, rfl⟩ := Prod.mk.inj (Option.some.inj h)
      rw [← greatestOpen_skipSpace, hinner, greatestOpen_closing n _ (.inl rfl)]
      rfl
    · obtain ⟨items, rfl, hitems⟩ := ih.items n [] inner d rest h
      rw [hitems, List.reverse_nil, List.nil_append, nesting, Nat.add_assoc]
  · -- an object
    rename_i inner hcs
    rw [← greatestOpen_skipSpace, hcs, greatestOpen_opening n _ (.inr rfl)]
    split at h
    · rename_i rest' hinner
      obtain ⟨rfl, rfl⟩ := Prod.mk.inj (Option.some.inj h)
      rw [← greatestOpen_skipSpace, hinner, greatestOpen_closing n _ (.inr rfl)]
      rfl
    · obtain ⟨members, rfl, hmembers⟩ := ih.members n [] inner d rest h
      rw [hmembers, List.reverse_nil, List.nil_append, nesting, Nat.add_assoc]
  · -- a number
    split at h
    · simp at h
    · rename_i l rest' hliteral
      obtain ⟨rfl, rfl⟩ := Prod.mk.inj (Option.some.inj h)
      exact hleaf (greatestOpen_readLiteral n hliteral) rfl

include ih in
/-- Reading the items of an array counts their brackets if reading documents and the items that follow
does.

**Proof sketch.** The first item is counted one level deeper. Behind it a comma leads to the other
items, which are counted by hypothesis, and a closing bracket ends the array. -/
private theorem readItems_succ (n : Nat) (read : List Document) (cs : List Char) (d : Document)
    (rest : List Char) (h : readItems (steps + 1) read cs = some (d, rest)) :
    ∃ items, d = .arr (read.reverse ++ items) ∧ greatestOpen .outside (n + 1) cs =
      max (n + 1 + itemNesting items) (greatestOpen .outside n rest) := by
  rw [readItems] at h
  split at h
  · simp at h
  · rename_i item after hvalue
    have hitem := ih.value (n + 1) cs item after hvalue
    rw [← greatestOpen_skipSpace _ after] at hitem
    split at h
    · rename_i following hafter
      obtain ⟨items, rfl, hitems⟩ := ih.items n (item :: read) following d rest h
      refine ⟨item :: items, by simp, ?_⟩
      rw [hitem, hafter, greatestOpen_of_isNeutral _ _ (by decide), hitems, itemNesting]
      omega
    · rename_i following hafter
      obtain ⟨rfl, rfl⟩ := Prod.mk.inj (Option.some.inj h)
      refine ⟨[item], by simp, ?_⟩
      rw [hitem, hafter, greatestOpen_closing n _ (.inl rfl), itemNesting, itemNesting]
      omega
    · simp at h

include ih in
/-- Reading the members of an object counts their brackets if reading documents and the members that
follow does.

**Proof sketch.** Along the member: its name is a string, and the colon is neutral, so both leave
the count. The value is counted one level deeper. Behind it a comma leads to the other members,
which are counted by hypothesis, and a brace ends the object; anything else is no object. -/
private theorem readMembers_succ (n : Nat) (read : List (Option String × Document)) (cs : List Char)
    (d : Document) (rest : List Char) (h : readMembers (steps + 1) read cs = some (d, rest)) :
    ∃ members, d = .obj (read.reverse ++ members) ∧ greatestOpen .outside (n + 1) cs =
      max (n + 1 + memberNesting members) (greatestOpen .outside n rest) := by
  rw [readMembers] at h
  rw [← greatestOpen_skipSpace]
  split at h
  · rename_i afterQuote hcs
    rw [hcs, greatestOpen_quote]
    split at h
    · simp at h
    · rename_i name afterName hname
      rw [greatestOpen_readString _ hname, ← greatestOpen_skipSpace]
      split at h
      · rename_i afterColon hcolon
        rw [hcolon, greatestOpen_of_isNeutral _ _ (by decide)]
        split at h
        · simp at h
        · rename_i value after hvalue
          rw [ih.value (n + 1) afterColon value after hvalue, ← greatestOpen_skipSpace _ after]
          split at h
          · rename_i following hafter
            obtain ⟨members, rfl, hmembers⟩ :=
              ih.members n ((name, value) :: read) following d rest h
            refine ⟨(name, value) :: members, by simp, ?_⟩
            rw [hafter, greatestOpen_of_isNeutral _ _ (by decide), hmembers, memberNesting]
            omega
          · rename_i following hafter
            obtain ⟨rfl, rfl⟩ := Prod.mk.inj (Option.some.inj h)
            refine ⟨[(name, value)], by simp, ?_⟩
            rw [hafter, greatestOpen_closing n _ (.inr rfl), memberNesting, memberNesting]
            omega
          · simp at h
      · simp at h
  · simp at h

end CountsBrackets

/-- **The reader counts brackets**, with any number of steps.

**Proof sketch.** Induction on the steps. What stands between the parts of a document is a comma, a colon
or a blank, and opens nothing. -/
theorem countsBrackets (steps : Nat) : CountsBrackets steps := by
  induction steps with
  | zero =>
    exact ⟨fun _ _ _ _ h => by simp [readValue] at h, fun _ _ _ _ _ h => by simp [readItems] at h,
      fun _ _ _ _ _ h => by simp [readMembers] at h⟩
  | succ steps ih => exact ⟨ih.readValue_succ, ih.readItems_succ, ih.readMembers_succ⟩

/-- **A text that is read has as many brackets open at once as its document is nested.** -/
theorem openBrackets_eq_nesting {text : String} {d : Document} (h : read text = some d) :
    openBrackets text = d.nesting := by
  rw [read] at h
  split at h
  · simp at h
  · rename_i d' rest hread
    split at h
    · rename_i hblank
      obtain rfl := Option.some.inj h
      have hrest : skipSpace rest = [] := List.isEmpty_iff.mp hblank
      rw [openBrackets, (countsBrackets _).value 0 _ _ _ hread, ← greatestOpen_skipSpace _ rest,
        hrest, greatestOpen, Nat.zero_add, Nat.max_zero]
    · simp at h

end Document

end SqlFilter.Json
