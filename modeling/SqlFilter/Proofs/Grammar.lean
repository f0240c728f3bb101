import SqlFilter.Proofs.Lexemes

set_option relaxedAutoImplicit false
set_option autoImplicit false

/-!
# How a condition is read

Conditions are read with the precedence of SQL: `NOT` binds more tightly than `AND`, and `AND` more
tightly than `OR`; parentheses group. What is read is a formula over tests of single columns.

## Design

A level of the grammar joins operands of the next tighter level with one keyword. Chains of operands
are read from the right, so that a reading is never ambiguous: where an operand ends is decided by the
lexeme that follows it. `Precedence.Stops` says that what follows does not go on at a level.

## Main definitions

* `Formula` — what a condition asks, with the names of columns and parameters as they are written.
* `Precedence`, `Reads` — the levels of the grammar, and the readings of lexemes.
* `IsReading` — the readings of a text, which may be empty.

## Main results

* `Reads.eq_of_append_eq` — at most one prefix of given lexemes is read, as one formula.
* `IsReading.unique` — a text has at most one reading.
-/

namespace SqlFilter

/-! ## Formulas -/

/-- What a condition asks. Columns, tokens and parameters are named as they are written. -/
inductive Formula where
  | compare (column token parameter : String)
  | null (column : String) (expected : Bool)
  | not (f : Formula)
  | join (c : Conjunction) (f g : Formula)
deriving DecidableEq

/-! ## Tests of columns -/

/-- The words that no column is read from. -/
def reserved : List String :=
  ["AND", "OR", "NOT", "IS", "NULL"] ++ Operator.declared.flatMap Operator.words

/-- A word is read as a column if it is not reserved and has no placeholder. -/
def IsColumn (word : String) : Prop := word ∉ reserved ∧ ':' ∉ word.toList

/-- The lexemes of the operand of an operator: a placeholder, for a list in parentheses. -/
def Operator.operandLexemes (o : Operator) (p : String) : List Lexeme :=
  if o.isMembership then [.opening, .word (placeholder p), .closing] else [.word (placeholder p)]

/-- The readings of tests of single columns: `column operator :p`, `column [NOT] IN (:p)` and
`column IS [NOT] NULL`. -/
inductive ReadsTest : List Lexeme → Formula → Prop
  | compare {column : String} {o : Operator} (p : String) (hcolumn : IsColumn column)
      (hnull : o ≠ .null) :
      ReadsTest (.word column :: (o.words.map .word ++ o.operandLexemes p))
        (.compare column o.token p)
  | null {column : String} (expected : Bool) (hcolumn : IsColumn column) :
      ReadsTest (.word column :: (nullWords expected).map .word) (.null column expected)

/-! ## Levels -/

/-- The levels of the grammar: what needs no parentheses anywhere, and chains of operands. -/
inductive Precedence where
  | factor
  | joined (c : Conjunction)

/-- The level of what a conjunction joins. -/
def Conjunction.operands : Conjunction → Precedence
  | .and => .factor
  | .or => .joined .and

/-- The readings of lexemes at a level. -/
inductive Reads : Precedence → List Lexeme → Formula → Prop
  | test {ts : List Lexeme} {f : Formula} (h : ReadsTest ts f) : Reads .factor ts f
  | parenthesized {ts : List Lexeme} {f : Formula} (h : Reads (.joined .or) ts f) :
      Reads .factor (.opening :: (ts ++ [.closing])) f
  | not {ts : List Lexeme} {f : Formula} (h : Reads .factor ts f) :
      Reads .factor (.word "NOT" :: ts) (.not f)
  | lift {c : Conjunction} {ts : List Lexeme} {f : Formula} (h : Reads c.operands ts f) :
      Reads (.joined c) ts f
  | join {c : Conjunction} {ts us : List Lexeme} {f g : Formula} (hf : Reads c.operands ts f)
      (hg : Reads (.joined c) us g) :
      Reads (.joined c) (ts ++ .word c.keyword :: us) (.join c f g)

/-- Lexemes do not go on with a chain of a level. -/
def Precedence.Stops : Precedence → List Lexeme → Prop
  | .factor, _ => True
  | .joined .and, r => r.head? ≠ some (.word Conjunction.and.keyword)
  | .joined .or, r =>
    r.head? ≠ some (.word Conjunction.and.keyword) ∧ r.head? ≠ some (.word Conjunction.or.keyword)

/-! ## Readings are unique -/

namespace Operator

/-- The token of an operator is its words. -/
theorem token_eq_intercalate_words (o : Operator) : o.token = " ".intercalate o.words := by
  cases o <;> decide

/-- No operator begins with another one, apart from null tests. -/
theorem words_eq_of_append_eq {o o' : Operator} {r s : List Lexeme}
    (h : o.words.map Lexeme.word ++ r = o'.words.map Lexeme.word ++ s) : o.words = o'.words := by
  have hbegins : ∀ o ∈ declared, ∀ o' ∈ declared,
      o.words.map Lexeme.word <+: o'.words.map Lexeme.word → o.words = o'.words := by
    decide
  rcases List.prefix_or_prefix_of_prefix (List.prefix_append (o.words.map Lexeme.word) r)
    (h ▸ List.prefix_append (o'.words.map Lexeme.word) s) with hle | hle
  · exact hbegins o o.mem_declared o' o'.mem_declared hle
  · exact (hbegins o' o'.mem_declared o o.mem_declared hle).symm

/-- Only null tests begin with the first word of a null test. -/
theorem words_append_ne_nullWords {o : Operator} (hnull : o ≠ .null) (expected : Bool)
    (r s : List Lexeme) :
    o.words.map Lexeme.word ++ r ≠ (nullWords expected).map Lexeme.word ++ s := by
  cases o <;> cases expected <;> simp_all [words, nullWords, token]

end Operator

/-- Operators of the same words have operands of the same form, and these are read off what they
begin. -/
theorem Operator.operandLexemes_append_inj {o o' : Operator} {p p' : String} {r s : List Lexeme}
    (hwords : o.words = o'.words) (h : o.operandLexemes p ++ r = o'.operandLexemes p' ++ s) :
    p = p' ∧ o.operandLexemes p = o'.operandLexemes p' := by
  have hmembership : o.isMembership = o'.isMembership := by
    revert hwords
    cases o <;> cases o' <;> decide
  have hp : p = p' := by
    unfold operandLexemes at h
    rw [hmembership] at h
    split at h <;> exact (by simpa [placeholder] using h : p = p' ∧ r = s).1
  exact ⟨hp, by rw [operandLexemes, operandLexemes, hmembership, hp]⟩

/-- At most one prefix of given lexemes is read as a test.

**Proof sketch.** Both tests begin with the same column. If both compare, their operators have the
same words, and these tell how the operand is written, so the operands agree. If both test for
`NULL`, the words tell which of the two tests it is. No comparison goes on with the words of a test
for `NULL`. -/
theorem ReadsTest.eq_of_append_eq {ts us r s : List Lexeme} {f g : Formula} (hf : ReadsTest ts f)
    (hg : ReadsTest us g) (h : ts ++ r = us ++ s) : ts = us ∧ f = g := by
  cases hf with
  | @compare column o p hcolumn hnull =>
    cases hg with
    | @compare column' o' p' hcolumn' hnull' =>
      simp only [List.cons_append, List.append_assoc, List.cons.injEq, Lexeme.word.injEq] at h
      obtain ⟨rfl, h⟩ := h
      have hwords := Operator.words_eq_of_append_eq h
      rw [hwords, List.append_cancel_left_eq] at h
      obtain ⟨rfl, hoperand⟩ := Operator.operandLexemes_append_inj hwords h
      rw [o.token_eq_intercalate_words, o'.token_eq_intercalate_words, hwords, hoperand]
      exact ⟨rfl, rfl⟩
    | @null column' expected hcolumn' =>
      simp only [List.cons_append, List.append_assoc, List.cons.injEq, Lexeme.word.injEq] at h
      exact absurd h.2 (Operator.words_append_ne_nullWords hnull expected _ s)
  | @null column expected hcolumn =>
    cases hg with
    | @compare column' o' p' hcolumn' hnull' =>
      simp only [List.cons_append, List.append_assoc, List.cons.injEq, Lexeme.word.injEq] at h
      exact absurd h.2.symm (Operator.words_append_ne_nullWords hnull' expected _ r)
    | @null column' expected' hcolumn' =>
      simp only [List.cons_append, List.cons.injEq, Lexeme.word.injEq] at h
      obtain ⟨rfl, h⟩ := h
      obtain rfl : expected = expected' := by
        cases expected <;> cases expected' <;> simp [nullWords] at h ⊢
      exact ⟨rfl, rfl⟩

/-- A test begins with a word other than `NOT`. -/
theorem ReadsTest.exists_cons {ts : List Lexeme} {f : Formula} (h : ReadsTest ts f) :
    ∃ column rest, ts = .word column :: rest ∧ column ≠ "NOT" := by
  have hnot {column : String} (hcolumn : IsColumn column) : column ≠ "NOT" := by
    rintro rfl
    exact hcolumn.1 (by decide)
  cases h with
  | compare p hcolumn hnull => exact ⟨_, _, rfl, hnot hcolumn⟩
  | null expected hcolumn => exact ⟨_, _, rfl, hnot hcolumn⟩

/-- What stops a chain stops its last operand. -/
theorem Precedence.Stops.operands {c : Conjunction} {r : List Lexeme}
    (h : (Precedence.joined c).Stops r) :
    c.operands.Stops r := by
  cases c with
  | and => trivial
  | or => exact h.1

/-- A keyword stops the operand before it. -/
theorem Precedence.stops_keyword (c : Conjunction) (r : List Lexeme) :
    c.operands.Stops (.word c.keyword :: r) := by
  cases c with
  | and => trivial
  | or =>
    simp only [Conjunction.operands, Precedence.Stops, List.head?_cons]
    decide

/-- A chain is not stopped by its keyword. -/
theorem Precedence.not_stops_keyword (c : Conjunction) (r : List Lexeme) :
    ¬ (Precedence.joined c).Stops (.word c.keyword :: r) := by
  cases c <;> simp [Precedence.Stops]

/-- A closing parenthesis stops everything. -/
theorem Precedence.stops_closing (l : Precedence) (r : List Lexeme) : l.Stops (.closing :: r) := by
  cases l with
  | factor => trivial
  | joined c => cases c <;> simp [Precedence.Stops]

/-- **At most one prefix of given lexemes is read at a level**, if what follows stops the level, and
it is read as one formula.

**Proof sketch.** Induction on the first reading. The first lexeme tells a test, a parenthesis and a
negation apart. Two chains have the same first operand by the induction hypothesis, since it is
followed by the keyword or by the end of the chain; and what follows it tells whether the chain goes
on. -/
theorem Reads.eq_of_append_eq {l : Precedence} {ts : List Lexeme} {f : Formula} (hf : Reads l ts f) :
    ∀ {us r s : List Lexeme} {g : Formula}, Reads l us g → ts ++ r = us ++ s → l.Stops r →
      l.Stops s → ts = us ∧ f = g := by
  induction hf with
  | test hf =>
    intro us r s g hg h _ _
    obtain ⟨column, rest, rfl, hcolumn⟩ := hf.exists_cons
    cases hg with
    | test hg => exact hf.eq_of_append_eq hg h
    | parenthesized hg => simp at h
    | not hg => exact absurd (by simpa using (List.cons.inj h).1) hcolumn
  | @parenthesized ts f hf ih =>
    intro us r s g hg h _ _
    cases hg with
    | test hg =>
      obtain ⟨column, rest, rfl, -⟩ := hg.exists_cons
      simp at h
    | @parenthesized us g hg =>
      have hinner : ts ++ .closing :: r = us ++ .closing :: s := by simpa using h
      obtain ⟨rfl, rfl⟩ := ih hg hinner (Precedence.stops_closing _ r) (Precedence.stops_closing _ s)
      exact ⟨rfl, rfl⟩
    | not hg => simp at h
  | @not ts f hf ih =>
    intro us r s g hg h _ _
    cases hg with
    | test hg =>
      obtain ⟨column, rest, rfl, hcolumn⟩ := hg.exists_cons
      exact absurd (by simpa using (List.cons.inj h).1.symm) hcolumn
    | parenthesized hg => simp at h
    | not hg =>
      obtain ⟨rfl, rfl⟩ := ih hg (List.cons.inj h).2 trivial trivial
      exact ⟨rfl, rfl⟩
  | @lift c ts f hf ih =>
    intro us r s g hg h hr hs
    cases hg with
    | lift hg => exact ih hg h hr.operands hs.operands
    | @join _ us us' g g' hg hg' =>
      have hfirst : ts ++ r = us ++ (.word c.keyword :: (us' ++ s)) := by simpa using h
      obtain ⟨rfl, rfl⟩ := ih hg hfirst hr.operands (Precedence.stops_keyword c _)
      rw [List.append_cancel_left_eq] at hfirst
      exact absurd (hfirst ▸ hr) (Precedence.not_stops_keyword c _)
  | @join c ts ts' f f' hf hf' ih ih' =>
    intro us r s g hg h hr hs
    have hassoc : ts ++ .word c.keyword :: ts' ++ r = ts ++ (.word c.keyword :: (ts' ++ r)) := by
      simp
    rw [hassoc] at h
    cases hg with
    | lift hg =>
      obtain ⟨rfl, rfl⟩ := ih hg h (Precedence.stops_keyword c _) hs.operands
      rw [List.append_cancel_left_eq] at h
      exact absurd (h ▸ hs) (Precedence.not_stops_keyword c _)
    | @join _ us us' g g' hg hg' =>
      have hboth : ts ++ (.word c.keyword :: (ts' ++ r)) = us ++ (.word c.keyword :: (us' ++ s)) := by
        simpa using h
      obtain ⟨rfl, rfl⟩ := ih hg hboth (Precedence.stops_keyword c _) (Precedence.stops_keyword c _)
      have hrest : ts' ++ r = us' ++ s := by simpa using hboth
      obtain ⟨rfl, rfl⟩ := ih' hg' hrest hr hs
      exact ⟨rfl, rfl⟩

/-- No reading is of no lexemes. -/
theorem Reads.ne_nil {l : Precedence} {ts : List Lexeme} {f : Formula} (h : Reads l ts f) :
    ts ≠ [] := by
  induction h with
  | test h =>
    obtain ⟨column, rest, rfl, -⟩ := h.exists_cons
    simp
  | parenthesized h => simp
  | not h => simp
  | lift h ih => exact ih
  | join hf hg => simp

/-! ## Readings of texts -/

/-- The readings of a condition: an empty one asks nothing, any other is read as a formula. -/
inductive IsReading (text : String) : Option Formula → Prop
  | nothing (h : lexemes text.toList = []) : IsReading text none
  | formula {f : Formula} (h : Reads (.joined .or) (lexemes text.toList) f) : IsReading text (some f)

/-- **A text has at most one reading.** -/
theorem IsReading.unique {text : String} {x y : Option Formula} (hx : IsReading text x)
    (hy : IsReading text y) : x = y := by
  cases hx with
  | nothing hx =>
    cases hy with
    | nothing hy => rfl
    | formula hy => exact absurd hx hy.ne_nil
  | formula hx =>
    cases hy with
    | nothing hy => exact absurd hy hx.ne_nil
    | formula hy =>
      have hend : (Precedence.joined .or).Stops [] := by simp [Precedence.Stops]
      rw [(hx.eq_of_append_eq hy rfl hend hend).2]

end SqlFilter
