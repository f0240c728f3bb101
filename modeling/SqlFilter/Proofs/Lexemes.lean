import Mathlib.Data.List.Basic
import SqlFilter.Proofs.Text

set_option relaxedAutoImplicit false
set_option autoImplicit false

/-!
# Plain names and lexemes

A name without delimiters and colons is plain. Columns and parameters made of plain names are words of
the statement that they stand in: nothing cuts them, and no placeholder begins inside a column. The
lexemes of a statement are its words and its parentheses and commas; blanks only separate.

## Main definitions

* `IsPlain` — names without delimiters and colons.
* `Lexeme`, `lexemes` — the lexemes of a text.
* `Segment.lexemes`, `Template.lexemes` — those of segments and templates.

## Main results

* `Naming.forall_mem_column`, `forall_mem_parameterName` — which characters columns and parameters
  have.
* `IsPlain.column`, `IsPlain.parameterName` — columns and parameters of plain names are plain.
* `Template.lexemes_chars` — the lexemes of a separated template are those of its segments.
-/

namespace SqlFilter

/-! ## The characters of columns and parameters -/

section

variable {P : Char → Prop} {name field : String}

/-- What holds of the two quotation marks holds of the mark of every style. -/
theorem Quote.forall_mem_mark (hbacktick : P '\x60') (hdouble : P '"') (q : Quote) :
    ∀ m ∈ q.mark, P m := by
  intro m hm
  cases q with
  | none => simp [mark] at hm
  | backtick =>
    obtain rfl : '\x60' = m := by simpa [mark] using hm
    exact hbacktick
  | double =>
    obtain rfl : '"' = m := by simpa [mark] using hm
    exact hdouble

/-- What holds of the characters of a name and of the quotation mark holds of the quoted name. -/
theorem Quote.forall_mem_quoted {q : Quote} (hmark : ∀ m ∈ q.mark, P m) (h : ∀ c ∈ name.toList, P c) :
    ∀ c ∈ (q.quoted name).toList, P c := by
  intro c hc
  unfold quoted at hc
  split at hc
  · exact h c hc
  · rename_i m hm
    rw [String.toList_ofList, enclosed, List.mem_cons, List.mem_append, doubled, List.mem_flatMap,
      List.mem_singleton] at hc
    rcases hc with rfl | ⟨d, hd, hc⟩ | rfl
    · exact hmark _ hm
    · split at hc
      · obtain rfl : c = m := by simpa using hc
        exact hmark _ hm
      · obtain rfl : c = d := by simpa using hc
        exact h c hd
    · exact hmark _ hm

/-- What holds of the characters of the alias and of a field, of the quotation mark and of the period
holds of the column. -/
theorem Naming.forall_mem_column {naming : Naming} (hmark : ∀ m ∈ naming.quote.mark, P m)
    (hperiod : P '.') (htable : ∀ c ∈ naming.table.toList, P c) (hfield : ∀ c ∈ field.toList, P c) :
    ∀ c ∈ (naming.column field).toList, P c := by
  intro c hc
  rw [column, Quote.qualified, String.toList_append, String.toList_append, List.mem_append,
    List.mem_append] at hc
  rcases hc with (hc | hc) | hc
  · exact Quote.forall_mem_quoted hmark htable c hc
  · obtain rfl : c = '.' := by simpa using hc
    exact hperiod
  · exact Quote.forall_mem_quoted hmark hfield c hc

/-- What holds of the characters of a field, of digits and of the underscore holds of its parameters.
-/
theorem forall_mem_parameterName (hdigit : ∀ c : Char, c.isDigit = true → P c) (hunderscore : P '_')
    (hfield : ∀ c ∈ field.toList, P c) (node position : Nat) :
    ∀ c ∈ (parameterName field node position).toList, P c := by
  have hnumber (n : Nat) : ∀ c ∈ (toString n).toList, P c := by
    intro c hc
    rw [Nat.toString_eq_repr, Nat.toList_repr] at hc
    exact hdigit c (Nat.isDigit_of_mem_toDigits (by decide) (by decide) hc)
  intro c hc
  rw [toList_parameterName] at hc
  simp only [List.mem_append, List.mem_cons] at hc
  rcases hc with hc | rfl | hc | rfl | hc
  · exact hfield c hc
  · exact hunderscore
  · exact hnumber node c hc
  · exact hunderscore
  · exact hnumber position c hc

end

/-! ## Plain names -/

/-- A name without delimiters and colons. -/
def IsPlain (name : String) : Prop := ∀ c ∈ name.toList, isDelimiter c = false ∧ c ≠ ':'

instance (name : String) : Decidable (IsPlain name) :=
  List.decidableBAll (fun c => isDelimiter c = false ∧ c ≠ ':') name.toList

/-- A digit is no delimiter and no colon. -/
theorem plain_of_isDigit {c : Char} (h : c.isDigit = true) : isDelimiter c = false ∧ c ≠ ':' := by
  have hbounds : 48 ≤ c.toNat ∧ c.toNat ≤ 57 := by
    simpa [Char.isDigit, UInt32.le_iff_toNat_le] using h
  have hother (d : Char) (hd : d.toNat < 48 ∨ 57 < d.toNat) : c ≠ d := by
    intro heq
    rw [heq] at hbounds
    omega
  have hblank : Text.isBlank c = false := by
    simp only [Text.isBlank, Text.blankRanges, List.any_cons, List.any_nil, Bool.or_eq_false_iff,
      Bool.and_eq_false_iff, decide_eq_false_iff_not, and_true]
    omega
  refine ⟨?_, hother ':' (by decide)⟩
  simp [isDelimiter, hblank, hother '(' (by decide), hother ')' (by decide), hother ',' (by decide)]

namespace IsPlain

variable {name field : String} {naming : Naming}

/-- A plain name has no delimiter. -/
theorem isDelimiter_eq_false (h : IsPlain name) : ∀ c ∈ name.toList, isDelimiter c = false :=
  fun c hc => (h c hc).1

/-- A plain name has no colon. -/
theorem noColon (h : IsPlain name) : ':' ∉ name.toList := fun hc => (h _ hc).2 rfl

/-- No placeholder begins in a plain name. -/
theorem inert (h : IsPlain name) : Inert name.toList := Inert.of_noColon h.noColon

/-- Quotation marks keep a name plain. -/
theorem quoted (h : IsPlain name) (q : Quote) : IsPlain (q.quoted name) :=
  Quote.forall_mem_quoted (Quote.forall_mem_mark (by decide) (by decide) q) h

/-- The column of a plain field is plain, if the alias is. -/
theorem column (htable : IsPlain naming.table) (hfield : IsPlain field) :
    IsPlain (naming.column field) :=
  Naming.forall_mem_column (Quote.forall_mem_mark (by decide) (by decide) _) (by decide) htable hfield

/-- The parameters of a plain field are plain. -/
theorem parameterName (hfield : IsPlain field) (node position : Nat) :
    IsPlain (parameterName field node position) :=
  forall_mem_parameterName (fun _ => plain_of_isDigit) (by decide) hfield node position

/-- The parameter of a condition on a plain field is plain. -/
theorem parameter {c : Condition} (hfield : IsPlain c.field) : IsPlain c.parameter :=
  hfield.parameterName c.node c.position

end IsPlain

/-- The parameters of a tree with plain fields are plain. -/
theorem Expr.plain_of_mem_parameters {e : Expr} (hfields : ∀ f ∈ e.fields, IsPlain f) :
    ∀ p ∈ e.parameters, IsPlain p := by
  intro p hp
  obtain ⟨b, hb, rfl⟩ := List.mem_map.mp hp
  obtain ⟨c, hc, hparameter⟩ := e.exists_parameter_of_mem_bindings hb
  have hfield : c.field ∈ e.fields := (e.fields_conditions_perm 0).subset (List.mem_map_of_mem hc)
  rw [hparameter]
  exact (hfields _ hfield).parameter

section

variable {options : CompilerOptions} {keys : Keys} {q : Query}

/-- The columns of a condition are plain, if the alias, the keys and the fields are. -/
theorem Query.plain_column (htable : IsPlain options.table) (hkeys : ∀ k ∈ keys.fields, IsPlain k)
    (hfields : ∀ f ∈ q.filter.fields, IsPlain f) :
    ∀ f ∈ (q.template keys).fields, IsPlain (options.naming.column f) := by
  intro f hf
  rw [Query.fields_template, List.mem_append] at hf
  rcases hf with hf | hf
  · exact IsPlain.column htable (hkeys f hf)
  · exact IsPlain.column htable (hfields f ((q.filter.fields_conditions_perm 0).subset hf))

/-- The parameters of a condition are plain, if the keys and the fields are. -/
theorem Query.plain_parameter (hkeys : ∀ k ∈ keys.fields, IsPlain k)
    (hfields : ∀ f ∈ q.filter.fields, IsPlain f) :
    ∀ p ∈ (q.template keys).parameters, IsPlain p := by
  intro p hp
  rw [Query.parameters_template, List.mem_append] at hp
  rcases hp with hp | hp
  · exact hkeys p hp
  · exact q.filter.plain_of_mem_parameters hfields p hp

end

/-! ## Lexemes -/

/-- A part of a statement that blanks can surround. -/
inductive Lexeme where
  | opening
  | closing
  | comma
  | word (text : String)
deriving DecidableEq

namespace Lexeme

/-- The lexeme of a word, none if the word is empty. -/
def ofWord (cs : List Char) : List Lexeme := if cs = [] then [] else [.word (String.ofList cs)]

/-- The lexeme of a delimiter, none if it is blank. -/
def ofDelimiter (d : Char) : List Lexeme :=
  if d = '(' then [.opening] else if d = ')' then [.closing] else if d = ',' then [.comma] else []

end Lexeme

/-- The lexemes of a text. -/
def lexemes (cs : List Char) : List Lexeme :=
  Lexeme.ofWord (Words.ofChars cs).first ++
    (Words.ofChars cs).rest.flatMap fun p => Lexeme.ofDelimiter p.1 ++ Lexeme.ofWord p.2

@[simp] theorem lexemes_nil : lexemes [] = [] := rfl

/-- The lexemes around a delimiter: those before it, its own and those after it. -/
theorem lexemes_append_delimiter (a b : List Char) {d : Char} (hd : isDelimiter d = true) :
    lexemes (a ++ d :: b) = lexemes a ++ (Lexeme.ofDelimiter d ++ lexemes b) := by
  rw [lexemes, Words.ofChars_append_delimiter a b hd]
  simp [lexemes]

/-- **Lexemes go through seams.** -/
theorem lexemes_append {a b : List Char} (h : Seam a b) :
    lexemes (a ++ b) = lexemes a ++ lexemes b :=
  h.map_append List.append_assoc List.nil_append List.append_nil lexemes_nil
    fun a b _ hd => lexemes_append_delimiter a b hd

/-- A text without delimiters is one lexeme, if it is not empty. -/
theorem lexemes_of_plain {s : String} (hne : s.toList ≠ [])
    (h : ∀ c ∈ s.toList, isDelimiter c = false) : lexemes s.toList = [.word s] := by
  simp [lexemes, Words.ofChars_of_plain h, Lexeme.ofWord, hne]

/-! ## Lexemes of templates -/

/-- The words of an operator. -/
def Operator.words : Operator → List String
  | .notLike => ["NOT", "LIKE"]
  | .notMember => ["NOT", "IN"]
  | o => [o.token]

/-- The words of a null test. -/
def nullWords : Bool → List String
  | true => ["IS", "NULL"]
  | false => ["IS", "NOT", "NULL"]

/-- The lexemes of a segment. -/
def Segment.lexemes (naming : Naming) : Segment → List Lexeme
  | .opening => [.opening]
  | .closing => [.closing]
  | .link c => [.word c.keyword]
  | .not => [.word "NOT"]
  | .column field => [.word (naming.column field)]
  | .operator o => o.words.map .word
  | .null expected => (nullWords expected).map .word
  | .placeholder name => [.word (SqlFilter.placeholder name)]

/-- The lexemes of a template. -/
def Template.lexemes (naming : Naming) (t : Template) : List Lexeme :=
  t.flatMap (Segment.lexemes naming)

section

variable (naming : Naming)

/-- The lexemes of the text of a segment with plain names. -/
theorem Segment.lexemes_written (s : Segment)
    (hcolumn : ∀ f ∈ s.field?, IsPlain (naming.column f))
    (hplaceholder : ∀ p ∈ s.parameter?, IsPlain p) :
    SqlFilter.lexemes (s.written naming SqlFilter.placeholder).toList = s.lexemes naming := by
  cases s with
  | opening | closing | not => simp [written, lexemes]; rfl
  | link c => cases c <;> simp [written, lexemes, Conjunction.separator, Conjunction.keyword] <;> rfl
  | operator o => cases o <;> simp [written, lexemes, Operator.words, Operator.token] <;> rfl
  | null expected => cases expected <;> simp [written, lexemes, nullWords] <;> rfl
  | column field =>
    have hne : (naming.column field).toList ≠ [] := by simp [Naming.column, Quote.qualified]
    exact lexemes_of_plain hne (hcolumn field rfl).isDelimiter_eq_false
  | placeholder name =>
    refine lexemes_of_plain (by simp [written, SqlFilter.placeholder]) fun c hc => ?_
    have hmem : c = ':' ∨ c ∈ name.toList := by
      simpa [written, SqlFilter.placeholder] using hc
    rcases hmem with rfl | hmem
    · decide
    · exact ((hplaceholder name rfl) c hmem).1

/-- **The lexemes of the text of a separated template** with plain names are those of its
segments. -/
theorem Template.lexemes_chars {t : Template} (h : Separated t)
    (hcolumn : ∀ f ∈ t.fields, IsPlain (naming.column f))
    (hplaceholder : ∀ p ∈ t.parameters, IsPlain p) :
    SqlFilter.lexemes (t.chars naming) = t.lexemes naming := by
  rw [chars, h.map_written lexemes_nil lexemes_append naming]
  clear h
  induction t with
  | nil => rfl
  | cons s t ih =>
    have hhead : SqlFilter.lexemes (s.written naming SqlFilter.placeholder).toList =
        s.lexemes naming :=
      s.lexemes_written naming
        (fun f hf => hcolumn f (List.mem_filterMap.mpr ⟨s, List.mem_cons_self, hf⟩))
        (fun p hp => hplaceholder p (List.mem_filterMap.mpr ⟨s, List.mem_cons_self, hp⟩))
    have htail := ih
      (fun f hf => hcolumn f ((List.sublist_cons_self s t).filterMap _ |>.subset hf))
      (fun p hp => hplaceholder p ((List.sublist_cons_self s t).filterMap _ |>.subset hp))
    rw [List.foldr_cons, hhead, htail]
    rfl

end

end SqlFilter
