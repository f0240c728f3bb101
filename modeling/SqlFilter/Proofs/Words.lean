import Mathlib.Data.List.Chain
import Mathlib.Data.List.TakeWhile
import SqlFilter.Placeholder

set_option relaxedAutoImplicit false
set_option autoImplicit false

/-!
# Expansion piece by piece

Delimiters cut a statement into words, and a word is expanded on its own. So a statement that is put
together from pieces is expanded piece by piece, as long as a delimiter stands at every seam: at the
end of the left piece or at the start of the right one.

## Main definitions

* `Seam` — two pieces with a delimiter where they meet.
* `Expansion`, `Expansion.append` — results of expanding texts, joined; the first error wins.
* `Inert` — texts in which no placeholder begins.

## Main results

* `Words.ofChars_append_delimiter` — the words of a text with a delimiter inside.
* `Seam.map_append` — what is defined around delimiters goes through seams.
* `expandChars_append` — expansion goes through a seam.
* `expandChars_of_inert`, `expandChars_placeholder` — what single pieces expand to.
-/

namespace SqlFilter

/-! ## Words of joined texts -/

namespace Words

/-- A delimiter inside a text ends the last word before it and begins the first one after it. -/
theorem ofChars_append_delimiter (a b : List Char) {d : Char} (hd : isDelimiter d = true) :
    ofChars (a ++ d :: b) =
      ⟨(ofChars a).first, (ofChars a).rest ++ (d, (ofChars b).first) :: (ofChars b).rest⟩ := by
  have hcons : ∀ c cs, ofChars (c :: cs) = cons c (ofChars cs) := fun _ _ => rfl
  induction a with
  | nil => simp [cons, hd, ofChars]
  | cons c a ih =>
    rw [List.cons_append, hcons, hcons, ih]
    unfold cons
    split <;> rfl

/-- A text without delimiters is one word. -/
theorem ofChars_of_plain {cs : List Char} (h : ∀ c ∈ cs, isDelimiter c = false) :
    ofChars cs = ⟨cs, []⟩ := by
  induction cs with
  | nil => rfl
  | cons c cs ih =>
    have hcons : ofChars (c :: cs) = cons c (ofChars cs) := rfl
    rw [hcons, ih fun c' hc' => h c' (List.mem_cons_of_mem _ hc'), cons,
      if_neg (by simp [h c List.mem_cons_self])]

end Words

/-- A delimiter stands where two texts meet, or there is no second text. -/
inductive Seam : List Char → List Char → Prop
  | atEnd (a b : List Char) (d : Char) (hd : isDelimiter d = true) : Seam (a ++ [d]) b
  | atStart (a b : List Char) (d : Char) (hd : isDelimiter d = true) : Seam a (d :: b)
  | last (a : List Char) : Seam a []

/-- There is a seam after a text that ends with a delimiter. -/
theorem Seam.of_getLast? {a : List Char} (h : a.getLast?.any isDelimiter = true) (b : List Char) :
    Seam a b := by
  cases hlast : a.getLast? with
  | none => simp [hlast] at h
  | some d =>
    obtain ⟨init, rfl⟩ := List.getLast?_eq_some_iff.mp hlast
    exact .atEnd init b d (by simpa [hlast] using h)

/-- There is a seam after a text whose second part ends with a delimiter. -/
theorem Seam.of_getLast?_append {a b : List Char} (h : b.getLast?.any isDelimiter = true)
    (c : List Char) : Seam (a ++ b) c := by
  refine Seam.of_getLast? ?_ c
  rw [List.getLast?_append]
  cases hlast : b.getLast? with
  | none => simp [hlast] at h
  | some d => simpa [hlast] using h

/-- There is a seam before a text that starts with a delimiter. -/
theorem Seam.of_head? (a : List Char) {b : List Char} (h : b.head?.any isDelimiter = true) :
    Seam a b := by
  cases b with
  | nil => exact .last a
  | cons d b => exact .atStart a b d h

/-- **What is defined around delimiters goes through seams.** Here `f` is defined on texts with
results that can be joined, and at a delimiter it is what it is before, at and after it.

**Proof sketch.** Cut the joined text at the delimiter of the seam, and the piece that the delimiter
belongs to as well. -/
theorem Seam.map_append {M : Type} {join : M → M → M} {unit : M} {f : List Char → M} {g : Char → M}
    (hassoc : ∀ x y z, join (join x y) z = join x (join y z)) (hleft : ∀ x, join unit x = x)
    (hright : ∀ x, join x unit = x) (hnil : f [] = unit)
    (hcut : ∀ a b d, isDelimiter d = true → f (a ++ d :: b) = join (f a) (join (g d) (f b)))
    {a b : List Char} (h : Seam a b) : f (a ++ b) = join (f a) (f b) := by
  cases h with
  | atEnd a b d hd =>
    rw [List.append_assoc, List.singleton_append, hcut a b d hd, hcut a [] d hd, hnil, hright,
      hassoc]
  | atStart a b d hd =>
    have hb := hcut [] b d hd
    rw [List.nil_append, hnil, hleft] at hb
    rw [hcut a b d hd, hb]
  | last a => rw [List.append_nil, hnil, hright]

/-! ## Results of expansion -/

/-- The result of expanding a text: the error of its first placeholder that cannot be bound, or the
text with question marks and the values. -/
abbrev Expansion : Type := Except BindError (List Char × List Json)

namespace Expansion

/-- The expansion of the empty text. -/
def empty : Expansion := .ok ([], [])

/-- The expansions of two texts, one after the other. -/
def append : Expansion → Expansion → Expansion
  | .error e, _ => .error e
  | .ok _, .error e => .error e
  | .ok (cs, values), .ok (more, others) => .ok (cs ++ more, values ++ others)

@[simp] theorem empty_append (x : Expansion) : empty.append x = x := by
  cases x <;> rfl

@[simp] theorem append_empty (x : Expansion) : x.append empty = x := by
  cases x with
  | error e => rfl
  | ok r => simp [append, empty]

/-- Joining expansions is associative. -/
theorem append_assoc (x y z : Expansion) : (x.append y).append z = x.append (y.append z) := by
  cases x with
  | error e => rfl
  | ok r =>
    cases y with
    | error e => rfl
    | ok s =>
      cases z with
      | error e => rfl
      | ok t => simp [append]

/-- A text that binds nothing, before another one. -/
theorem ok_append (cs : List Char) (x : Expansion) :
    append (.ok (cs, [])) x = x.map fun r => (cs ++ r.1, r.2) := by
  cases x <;> rfl

/-- A text that can be bound, after another one. -/
theorem append_ok (x : Expansion) (cs : List Char) (values : List Json) :
    append x (.ok (cs, values)) = x.map fun r => (r.1 ++ cs, r.2 ++ values) := by
  cases x <;> rfl

end Expansion

/-! ## Expanding joined texts -/

section

variable (params : FieldMap Json)

/-- The expansion of words and delimiters is that of the first word and then that of the others. -/
theorem expandChars_eq (cs : List Char) : expandChars params cs =
    Expansion.append (expandWord params (Words.ofChars cs).first)
      (expandRest params (Words.ofChars cs).rest) := by
  unfold expandChars
  dsimp only
  generalize expandWord params (Words.ofChars cs).first = first
  generalize expandRest params (Words.ofChars cs).rest = rest
  cases first <;> cases rest <;> rfl

/-- A word with a placeholder: what is before its name is kept. -/
theorem expandWord_of_name? {word name : List Char} (h : Word.name? word = some name) :
    expandWord params word =
      Expansion.append (.ok (Word.beforeName word, [])) (expandName params (String.ofList name)) := by
  rw [expandWord, h]
  dsimp only
  cases expandName params (String.ofList name) <;> rfl

/-- The expansion of a delimiter and its word, followed by others. -/
theorem expandRest_cons (d : Char) (word : List Char) (rest : List (Char × List Char)) :
    expandRest params ((d, word) :: rest) =
      Expansion.append (.ok ([d], []))
        (Expansion.append (expandWord params word) (expandRest params rest)) := by
  rw [expandRest]
  generalize expandWord params word = first
  generalize expandRest params rest = others
  cases first <;> cases others <;> rfl

/-- Delimited words are expanded one after the other. -/
private theorem expandRest_append (a b : List (Char × List Char)) :
    expandRest params (a ++ b) =
      Expansion.append (expandRest params a) (expandRest params b) := by
  induction a with
  | nil => exact (Expansion.empty_append _).symm
  | cons p a ih => rw [List.cons_append, expandRest_cons, expandRest_cons, ih,
      Expansion.append_assoc, Expansion.append_assoc]

/-- **Expansion around a delimiter**: the text before it, the delimiter itself, the text after it. -/
theorem expandChars_append_delimiter (a b : List Char) {d : Char} (hd : isDelimiter d = true) :
    expandChars params (a ++ d :: b) =
      Expansion.append (expandChars params a)
        (Expansion.append (.ok ([d], [])) (expandChars params b)) := by
  rw [expandChars_eq, Words.ofChars_append_delimiter a b hd, expandRest_append, expandRest_cons,
    ← Expansion.append_assoc, ← expandChars_eq, ← expandChars_eq]

/-- The empty text expands to itself. -/
@[simp] theorem expandChars_nil : expandChars params [] = Expansion.empty := rfl

/-- **Expansion goes through a seam.** -/
theorem expandChars_append {a b : List Char} (h : Seam a b) :
    expandChars params (a ++ b) =
      Expansion.append (expandChars params a) (expandChars params b) :=
  h.map_append Expansion.append_assoc Expansion.empty_append Expansion.append_empty
    (expandChars_nil params) fun a b _ hd => expandChars_append_delimiter params a b hd

/-! ## Single pieces -/

/-- A text in which no placeholder begins: after each of its colons there is a delimiter or nothing. -/
def Inert (cs : List Char) : Prop := cs.IsChain fun c d => c = ':' → isDelimiter d = true

instance (cs : List Char) : Decidable (Inert cs) :=
  inferInstanceAs (Decidable (cs.IsChain fun c d => c = ':' → isDelimiter d = true))

/-- A text without a colon is inert. -/
theorem Inert.of_noColon {cs : List Char} (h : ':' ∉ cs) : Inert cs := by
  induction cs with
  | nil => exact .nil
  | cons c cs ih =>
    rw [List.mem_cons, not_or] at h
    exact (ih h.2).cons fun _ _ hc => absurd hc.symm h.1

/-- Inert texts are inert together, if the first one does not end with a colon. -/
theorem Inert.append {a b : List Char} (ha : Inert a) (hb : Inert b)
    (hlast : a.getLast? ≠ some ':') : Inert (a ++ b) := by
  refine List.isChain_append.mpr ⟨ha, hb, fun c hc d _ hcolon => ?_⟩
  exact absurd (hcolon ▸ hc) hlast

/-- An inert word has no placeholder. -/
theorem Word.name?_of_inert {word : List Char} (h : Inert word)
    (hplain : ∀ c ∈ word, isDelimiter c = false) : Word.name? word = none := by
  have hsuffix : (word.dropWhile fun c => c ≠ ':') <:+ word := List.dropWhile_suffix _
  rw [Word.name?]
  split
  · rfl
  · rfl
  · rename_i colon c rest hdrop
    rw [hdrop] at hsuffix
    have hcolon : colon = ':' := by
      have hhead := List.head?_dropWhile_not (fun c => decide (c ≠ ':')) word
      rw [hdrop] at hhead
      simpa using hhead
    have hdelimiter : isDelimiter c = true :=
      (List.isChain_cons_cons.mp (List.IsChain.suffix h hsuffix)).1 hcolon
    have hmem : c ∈ word := hsuffix.subset (List.mem_cons_of_mem _ List.mem_cons_self)
    simp [hplain c hmem] at hdelimiter

/-- **An inert text is not changed** and binds nothing.

**Proof sketch.** Cut the text at a delimiter as long as it has one. The pieces are inert, and an inert
piece without a delimiter is a word without a placeholder. -/
theorem expandChars_of_inert {cs : List Char} (h : Inert cs) :
    expandChars params cs = .ok (cs, []) := by
  induction hn : cs.length using Nat.strongRecOn generalizing cs with
  | _ n ih =>
    by_cases hplain : ∀ c ∈ cs, isDelimiter c = false
    · rw [expandChars_eq, Words.ofChars_of_plain hplain, expandWord, Word.name?_of_inert h hplain]
      exact Expansion.append_empty _
    · obtain ⟨d, hd, hdelimiter⟩ : ∃ d ∈ cs, isDelimiter d = true := by simpa using hplain
      obtain ⟨a, b, rfl⟩ := List.append_of_mem hd
      rw [List.length_append, List.length_cons] at hn
      have ha : Inert a := List.IsChain.left_of_append h
      have hb : Inert b := (List.IsChain.right_of_append h).tail
      rw [expandChars_append_delimiter params a b hdelimiter,
        ih a.length (by omega) ha rfl, ih b.length (by omega) hb rfl]
      simp [Expansion.append]

/-- A text without a colon is not changed and binds nothing. -/
theorem expandChars_of_noColon {cs : List Char} (h : ':' ∉ cs) :
    expandChars params cs = .ok (cs, []) :=
  expandChars_of_inert params (Inert.of_noColon h)

/-- A text without a colon, before another one, is not changed. -/
theorem expandChars_before {a b : List Char} (h : Seam a b) (ha : ':' ∉ a) :
    expandChars params (a ++ b) = (expandChars params b).map fun r => (a ++ r.1, r.2) := by
  rw [expandChars_append params h, expandChars_of_noColon params ha, Expansion.ok_append]

/-- A text without a colon, after another one, is not changed. -/
theorem expandChars_after {a b : List Char} (h : Seam a b) (hb : ':' ∉ b) :
    expandChars params (a ++ b) = (expandChars params a).map fun r => (r.1 ++ b, r.2) := by
  rw [expandChars_append params h, expandChars_of_noColon params hb, Expansion.append_ok]
  simp only [List.append_nil]

/-- A text between two texts without colons. -/
theorem expandChars_between {a b c : List Char} (hab : Seam a (b ++ c)) (hbc : Seam b c)
    (ha : ':' ∉ a) (hc : ':' ∉ c) : expandChars params (a ++ (b ++ c)) =
      (expandChars params b).map fun r => (a ++ (r.1 ++ c), r.2) := by
  rw [expandChars_before params hab ha, expandChars_after params hbc hc]
  cases expandChars params b <;> rfl

/-- **A placeholder on its own** is replaced by what its name expands to. -/
theorem expandChars_placeholder {name : List Char} (hne : name ≠ [])
    (hplain : ∀ c ∈ name, isDelimiter c = false) :
    expandChars params (':' :: name) = expandName params (String.ofList name) := by
  have hplain' : ∀ c ∈ ':' :: name, isDelimiter c = false := by
    intro c hc
    rcases List.mem_cons.mp hc with rfl | hc
    · decide
    · exact hplain c hc
  obtain ⟨c, rest, rfl⟩ := List.exists_cons_of_ne_nil hne
  rw [expandChars_eq, Words.ofChars_of_plain hplain']
  have hname : Word.name? (':' :: c :: rest) = some (c :: rest) := rfl
  have hbefore : Word.beforeName (':' :: c :: rest) = [] := rfl
  rw [expandWord, hname]
  simp only [hbefore]
  cases expandName params (String.ofList (c :: rest)) with
  | error e => rfl
  | ok r => exact Expansion.append_empty _

/-- A colon on its own is no placeholder. -/
theorem expandChars_colon : expandChars params [':'] = .ok ([':'], []) := rfl

end

end SqlFilter
