import SqlFilter.Proofs.Grammar
import SqlFilter.Proofs.Meaning

set_option relaxedAutoImplicit false
set_option autoImplicit false

/-!
# Conditions mean what their filters mean

The condition of a compiled query is read in one way, and under all answers to its tests the formula
that is read has the value of the query's meaning.

## Design

Parentheses are left out where precedence allows it, so what a chain of terms is read as depends on
where it stands. The invariant `Says` carries a chain through the combinators: its first link is the
conjunction that it stands under, it is read at the level of that conjunction, and if it has only one
term it can be negated without parentheses.

## Main definitions

* `Formula.value?` — the value of a formula.
* `ReadsAs` — lexemes that are read as a formula of some value.
* `Says` — chains that stand under a conjunction and have a meaning.

## Main results

* `ReadsAs.append` — chains of one level are read together as one chain.
* `Expr.says` — the fragment of a tree says what the tree means.
* `Query.condition_reading` — the unique reading of a condition has the meaning of the query.
-/

namespace SqlFilter

/-! ## Values of readings -/

section

variable (σ : Answers) (lookup : String → Option Json)

/-- The value of a formula, if each of its parameters is bound. -/
def Formula.value? : Formula → Option Truth
  | .compare column token p => (lookup p).map fun operand => σ column (.compare token operand)
  | .null column expected => some (σ column (.null expected))
  | .not f => f.value?.map Truth.not
  | .join c f g => f.value?.bind fun v => g.value?.map (c.apply v)

/-- Lexemes are read at a level as a formula of some value. -/
def ReadsAs (l : Precedence) (ts : List Lexeme) (v : Truth) : Prop :=
  ∃ f, Reads l ts f ∧ f.value? σ lookup = some v

end

namespace ReadsAs

variable {σ : Answers} {lookup : String → Option Json} {ts us : List Lexeme} {v w : Truth}

/-- A single operand is a chain of operands. -/
theorem lift {c : Conjunction} (h : ReadsAs σ lookup c.operands ts v) :
    ReadsAs σ lookup (.joined c) ts v := by
  obtain ⟨f, hf, hv⟩ := h
  exact ⟨f, hf.lift, hv⟩

/-- What needs no parentheses can stand for a chain of either conjunction. -/
theorem joined_of_factor (c : Conjunction) (h : ReadsAs σ lookup .factor ts v) :
    ReadsAs σ lookup (.joined c) ts v := by
  cases c with
  | and => exact h.lift
  | or => exact (h.lift (c := .and)).lift

/-- A chain of `AND` can stand for a chain of either conjunction. -/
theorem joined_of_and (c : Conjunction) (h : ReadsAs σ lookup (.joined .and) ts v) :
    ReadsAs σ lookup (.joined c) ts v := by
  cases c with
  | and => exact h
  | or => exact h.lift

/-- Every chain can stand where nothing else is joined to it. -/
theorem joined_or {c : Conjunction} (h : ReadsAs σ lookup (.joined c) ts v) :
    ReadsAs σ lookup (.joined .or) ts v := by
  cases c with
  | and => exact h.lift
  | or => exact h

/-- A chain in parentheses needs no more of them. -/
theorem parenthesized {c : Conjunction} (h : ReadsAs σ lookup (.joined c) ts v) :
    ReadsAs σ lookup .factor (.opening :: (ts ++ [.closing])) v := by
  obtain ⟨f, hf, hv⟩ := h.joined_or
  exact ⟨f, hf.parenthesized, hv⟩

/-- A negation has the negated value. -/
theorem not (h : ReadsAs σ lookup .factor ts v) :
    ReadsAs σ lookup .factor (.word "NOT" :: ts) v.not := by
  obtain ⟨f, hf, hv⟩ := h
  exact ⟨.not f, hf.not, by rw [Formula.value?, hv, Option.map_some]⟩

/-- An operand before a chain makes the chain longer. -/
theorem cons {c : Conjunction} (hv : ReadsAs σ lookup c.operands ts v)
    (hw : ReadsAs σ lookup (.joined c) us w) :
    ReadsAs σ lookup (.joined c) (ts ++ .word c.keyword :: us) (c.apply v w) := by
  obtain ⟨f, hf, hfv⟩ := hv
  obtain ⟨g, hg, hgw⟩ := hw
  exact ⟨.join c f g, hf.join hg, by
    rw [Formula.value?, hfv, hgw, Option.bind_some, Option.map_some]⟩

/-- **Two chains of one level are read together as one chain**, whose value is that of both joined.

**Proof sketch.** Induction on the reading of the first chain. Readings go on at the right, so the
second chain is joined to the last operand of the first one; the connective is associative. -/
theorem append {c : Conjunction} (hv : ReadsAs σ lookup (.joined c) ts v)
    (hw : ReadsAs σ lookup (.joined c) us w) :
    ReadsAs σ lookup (.joined c) (ts ++ .word c.keyword :: us) (c.apply v w) := by
  obtain ⟨f, hf, hfv⟩ := hv
  generalize hl : Precedence.joined c = l at hf
  induction hf generalizing v with
  | test hf => simp at hl
  | parenthesized hf ih => simp at hl
  | not hf ih => simp at hl
  | @lift d ts f hf ih =>
    obtain rfl : c = d := by simpa using hl
    exact cons ⟨f, hf, hfv⟩ hw
  | @join d ts ts' f g hf hg ih ih' =>
    obtain rfl : c = d := by simpa using hl
    obtain ⟨x, hx, y, hy, rfl⟩ : ∃ x, f.value? σ lookup = some x ∧
        ∃ y, g.value? σ lookup = some y ∧ c.apply x y = v := by
      simpa [Formula.value?, Option.bind_eq_some_iff] using hfv
    have hrest := cons ⟨f, hf, hx⟩ (ih' hy rfl)
    rw [c.apply_assoc x y w]
    simpa using hrest

end ReadsAs

/-! ## Readings of joined tests -/

section

variable {σ : Answers} {lookup : String → Option Json} {naming : Naming}

@[simp] theorem Template.lexemes_append (a b : Template) :
    Template.lexemes naming (a ++ b) = a.lexemes naming ++ b.lexemes naming :=
  List.flatMap_append

@[simp] theorem Template.lexemes_cons (s : Segment) (t : Template) :
    Template.lexemes naming (s :: t) = s.lexemes naming ++ t.lexemes naming :=
  rfl

@[simp] theorem Template.lexemes_nil : Template.lexemes naming [] = [] := rfl

/-- Columns of plain names are read as columns: each of them has a dot, and no reserved word has. -/
theorem IsPlain.isColumn {field : String} (h : IsPlain (naming.column field)) :
    IsColumn (naming.column field) := by
  have hdot : ∀ word ∈ reserved, '.' ∉ word.toList := by decide
  refine ⟨fun hmem => hdot _ hmem ?_, h.noColon⟩
  simp [Naming.column, Quote.qualified]

/-- A comparison is read as its question, if its parameter is bound to its operand. -/
theorem readsAs_compare {field p : String} {o : Operator} {operand : Json}
    (hplain : IsPlain (naming.column field)) (hnull : o ≠ .null) (hp : lookup p = some operand) :
    ReadsAs σ lookup .factor
      (.word (naming.column field) :: (o.words.map .word ++ o.operandLexemes p))
      (σ (naming.column field) (.compare o.token operand)) :=
  ⟨_, .test (.compare p hplain.isColumn hnull), by rw [Formula.value?, hp, Option.map_some]⟩

/-- Joined templates are read as a chain, if each of them is read as something that needs no
parentheses. -/
theorem exists_readsAs_joined {α : Type} (c : Conjunction) {template : α → Template}
    {value : α → Truth} {items : List α} (hne : items ≠ [])
    (h : ∀ x ∈ items, ReadsAs σ lookup .factor ((template x).lexemes naming) (value x)) :
    ∃ v, c.joined (items.map fun x => some (value x)) = some v ∧
      ReadsAs σ lookup (.joined c)
        ((Template.joined (.link c) (items.map template)).lexemes naming) v := by
  induction items with
  | nil => exact absurd rfl hne
  | cons x items ih =>
    have hx := (h x List.mem_cons_self).joined_of_factor c
    cases items with
    | nil => exact ⟨value x, rfl, by simpa using hx⟩
    | cons y items =>
      obtain ⟨v, hv, hreads⟩ := ih (by simp) fun z hz => h z (List.mem_cons_of_mem _ hz)
      refine ⟨c.apply (value x) v, ?_, ?_⟩
      · rw [List.map_cons, Conjunction.joined_cons, hv, Option.merge_some_some]
      · simpa [Segment.lexemes] using hx.append hreads

end

/-! ## Chains that say something -/

section

variable {σ : Answers} {lookup : String → Option Json} {naming : Naming}

variable (σ lookup naming) in
/-- **A chain that stands under a conjunction says what a meaning is**: nothing if there is none.
Otherwise its first link is the conjunction, it is read at the level of the conjunction with the
meaning as value, and if it has one term only it needs no parentheses. -/
inductive Says (c : Conjunction) : Chain → Option Truth → Prop
  | nothing : Says c [] none
  | something {t : Term} {rest : Chain} {v : Truth}
      (hjoined : ReadsAs σ lookup (.joined c)
        (Template.lexemes naming (Chain.template ((c, t) :: rest))) v)
      (hfactor : rest = [] → ReadsAs σ lookup .factor
        (Template.lexemes naming (Chain.template ((c, t) :: rest))) v) :
      Says c ((c, t) :: rest) (some v)

namespace Says

variable {c d : Conjunction} {a b chain : Chain} {m n : Option Truth}

/-- A term on its own. -/
theorem term {t : Term} {v : Truth}
    (h : ReadsAs σ lookup .factor (t.template.lexemes naming) v) :
    Says σ lookup naming c [(c, t)] (some v) := by
  have htemplate : Chain.template [(c, t)] = t.template := by
    rw [Chain.template_cons, linkedTemplate, List.append_nil]
  exact .something (by simpa [htemplate] using h.joined_of_factor c)
    fun _ => by simpa [htemplate] using h

/-- **Two chains in a row**, under the same conjunction, say what both say joined. -/
theorem append (ha : Says σ lookup naming c a m) (hb : Says σ lookup naming c b n) :
    Says σ lookup naming c (a ++ b) (Option.merge c.apply m n) := by
  cases ha with
  | nothing => simpa using hb
  | @something t rest v hjoined hfactor =>
    cases hb with
    | nothing =>
      rw [List.append_nil, Option.merge_none_right]
      exact .something hjoined hfactor
    | @something u others w hjoined' _ =>
      have htemplate := Chain.template_append (List.cons_ne_nil (c, t) rest) ((c, u) :: others)
      rw [Chain.linkedTemplate_cons, List.cons_append] at htemplate
      have hboth := hjoined.append hjoined'
      rw [List.cons_append]
      exact .something (by simpa [htemplate, Segment.lexemes] using hboth) (by simp)

/-- A chain of `AND` can be spliced into a chain of either conjunction. -/
theorem spliced (c : Conjunction) (h : Says σ lookup naming .and chain m) :
    Says σ lookup naming c (chain.spliced c).flatten m := by
  rw [Chain.flatten_spliced]
  cases h with
  | nothing => exact .nothing
  | @something t rest v hjoined hfactor =>
    rw [Chain.linkedBy]
    rw [Chain.template_cons] at hjoined hfactor
    exact .something (by rw [Chain.template_cons]; exact hjoined.joined_of_and c)
      (by rw [Chain.template_cons]; exact hfactor)

/-- A chain in parentheses says what it says, under either conjunction. -/
theorem grouped (c : Conjunction) (h : Says σ lookup naming d chain m) :
    Says σ lookup naming c (chain.grouped c).flatten m := by
  cases h with
  | nothing => exact .nothing
  | @something t rest v hjoined _ =>
    refine term ?_
    rw [Term.template_group]
    simpa [Segment.lexemes] using hjoined.parenthesized

/-- A negated chain says the negation of what it says, under either conjunction. -/
theorem negated (c : Conjunction) (h : Says σ lookup naming d chain m) :
    Says σ lookup naming c (chain.negated c).flatten (m.map Truth.not) := by
  cases h with
  | nothing => exact .nothing
  | @something t rest v hjoined hfactor =>
    refine term ?_
    by_cases hlength : 1 < ((d, t) :: rest).length
    · rw [Term.template_not_of_lt hlength]
      simpa [Segment.lexemes] using hjoined.parenthesized.not
    · have hrest : rest = [] := by simpa using hlength
      rw [Term.template_not_of_le (Nat.not_lt.mp hlength)]
      simpa [Segment.lexemes] using (hfactor hrest).not

end Says

/-! ## Tests of a node -/

/-- What has to hold of a condition for it to be read: its column is plain, and its parameter is bound
to its operand. -/
structure Readable (lookup : String → Option Json) (naming : Naming) (c : Condition) : Prop where
  plain : IsPlain (naming.column c.field)
  bound : ∀ b ∈ c.binding?, lookup b.1 = some b.2

/-- A test that an operator makes is a comparison by that operator, which is not that of null tests,
or a null test. -/
theorem Operator.test_cases (o : Operator) (x : o.Operand) :
    (o ≠ .null ∧ ∃ operand, o.kind.test o x = .compare o operand) ∨
      ∃ expected, o.kind.test o x = .null expected := by
  cases o <;> first
    | exact .inl ⟨by decide, _, rfl⟩
    | exact .inr ⟨_, rfl⟩

/-- A condition of an operator is read as its question. -/
theorem readsAs_condition {o : Operator} {x : o.Operand} {c : Condition}
    (htest : c.test = o.kind.test o x) (h : Readable lookup naming c) :
    ReadsAs σ lookup .factor (c.template.lexemes naming)
      (σ (naming.column c.field) c.test.question) := by
  rcases o.test_cases x with ⟨hnull, operand, hcompare⟩ | ⟨expected, hexpected⟩
  · have hbound : lookup c.parameter = some operand := by
      refine h.bound (c.parameter, operand) ?_
      rw [Condition.binding?, htest, hcompare]
      rfl
    have hlexemes : c.template.lexemes naming =
        .word (naming.column c.field) :: (o.words.map .word ++ o.operandLexemes c.parameter) := by
      rw [Condition.template, htest, hcompare]
      by_cases hmember : o.isMembership = true <;>
        simp [hmember, Segment.lexemes, Operator.operandLexemes]
    rw [hlexemes, htest, hcompare]
    exact readsAs_compare h.plain hnull hbound
  · have hlexemes : c.template.lexemes naming =
        .word (naming.column c.field) :: (nullWords expected).map .word := by
      rw [Condition.template, htest, hexpected]
      simp [Segment.lexemes]
    rw [hlexemes, htest, hexpected]
    exact ⟨_, .test (.null expected h.plain.isColumn), rfl⟩

/-- **The parts of maps** say what the maps mean.

**Proof sketch.** Each map that is not empty is one term: its tests, joined and in parentheses. -/
theorem says_partsFrom (c : Conjunction) (node : Nat)
    (maps : List ((o : Operator) × FieldMap o.Operand)) (position : Nat)
    (h : ∀ d ∈ numbered node position (mapTests maps), Readable lookup naming d) :
    Says σ lookup naming c (OperatorMaps.partsFrom c node position maps).flatten
      (c.joined (maps.map fun m => m.2.meaning σ naming c m.1)) := by
  induction maps generalizing position with
  | nil => exact .nothing
  | cons m rest ih =>
    obtain ⟨o, m⟩ := m
    have hcons : mapTests (⟨o, m⟩ :: rest) = m.tests o ++ mapTests rest := rfl
    have hlength : (m.tests o).length = m.size := by simp [FieldMap.tests, FieldMap.size]
    rw [hcons, numbered_append, hlength] at h
    rw [OperatorMaps.partsFrom, List.map_cons, Conjunction.joined_cons]
    split
    · rename_i hempty
      have hm : m.entries = [] := by simpa [FieldMap.isEmpty] using hempty
      have hnone : m.meaning σ naming c o = none := by simp [FieldMap.meaning, FieldMap.tests, hm]
      rw [hnone, Option.merge_none_left]
      refine ih position fun d hd => h d ?_
      simpa [FieldMap.tests, FieldMap.size, hm, numbered] using hd
    · rename_i hempty
      have hne : m.conditions o node position ≠ [] := by
        simpa [FieldMap.isEmpty, FieldMap.conditions] using hempty
      have hreads : ∀ d ∈ m.conditions o node position, ReadsAs σ lookup .factor
          (d.template.lexemes naming) (σ (naming.column d.field) d.test.question) := by
        intro d hd
        have hreadable := h d (List.mem_append_left _
          (m.conditions_eq_numbered o node position ▸ hd))
        obtain ⟨e, -, rfl⟩ := List.mem_map.mp hd
        exact readsAs_condition rfl hreadable
      obtain ⟨v, hv, hterm⟩ := exists_readsAs_joined c hne hreads
      have hmeaning : m.meaning σ naming c o = some v := by
        rw [FieldMap.meaning, ← hv, m.conditions_eq_numbered, ← map_numbered _ node position]
      rw [List.flatten_cons, hmeaning]
      refine (Says.term ?_).append
        (ih (position + m.size) fun d hd => h d (List.mem_append_right _ hd))
      rw [Term.template, conditionsTemplate]
      simpa [Segment.lexemes] using hterm.parenthesized

/-- The parts of the maps of a node say what the maps mean, which does not depend on the order of the
operators. -/
theorem says_parts (maps : OperatorMaps) (c : Conjunction) (node : Nat)
    (h : ∀ d ∈ numbered node 0 maps.tests, Readable lookup naming d) :
    Says σ lookup naming c (maps.parts c node).flatten (maps.meaning σ naming c) := by
  have hperm : (maps.present Operator.compiled).Perm (maps.present Operator.declared) :=
    Operator.compiled_perm_declared.filterMap _
  rw [OperatorMaps.meaning, ← c.joined_perm (hperm.map _)]
  exact says_partsFrom c node _ 0 h

/-! ## Trees -/

/-- The chain of a list of filters says what they mean together, if that of each of them does. -/
private theorem says_compileAll_of_forall (es : List Expr) (c : Conjunction)
    (hall : ∀ e ∈ es, ∀ c before, (∀ d ∈ e.conditions before, Readable lookup naming d) →
      Says σ lookup naming c (e.compile c before).chain (e.meaning σ naming c))
    (before : Nat) (h : ∀ d ∈ Expr.conditionsAll es before, Readable lookup naming d) :
    Says σ lookup naming c (Expr.compileAll es c before) (Expr.meaningAll σ naming es c) := by
  induction es generalizing before with
  | nil => exact .nothing
  | cons e es ih =>
    rw [Expr.conditionsAll] at h
    rw [Expr.compileAll_cons, Expr.meaningAll]
    have hhead := hall e (by simp) c before fun d hd => h d (List.mem_append_left _ hd)
    exact hhead.append (ih (fun e' he' => hall e' (by simp [he'])) _
      fun d hd => h d (List.mem_append_right _ hd))

/-- **The fragment of a tree says what the tree means**, whatever conjunction the tree stands under.

**Proof sketch.** Induction on the tree. Each combinator makes of the chain below it one that says
what the combinator means, and the chains of the combinators are joined in a row. -/
theorem Expr.says (e : Expr) : ∀ (c : Conjunction) (before : Nat),
    (∀ d ∈ e.conditions before, Readable lookup naming d) →
      Says σ lookup naming c (e.compile c before).chain (e.meaning σ naming c) := by
  induction e using Expr.inductionOn with
  | node maps not nor and or hand hnot hnor hor =>
    intro c before h
    rw [Expr.conditions_node] at h
    simp only [List.mem_append, or_imp, forall_and] at h
    obtain ⟨⟨⟨⟨hmaps, hands⟩, hnots⟩, hnors⟩, hors⟩ := h
    have hmaps := says_parts (σ := σ) maps c (before + 1) hmaps
    have hands := says_compileAll_of_forall (σ := σ) _ .and hand _ hands
    have hnots := says_compileAll_of_forall (σ := σ) _ .and hnot _ hnots
    have hnors := says_compileAll_of_forall (σ := σ) _ .or hnor _ hnors
    have hors := says_compileAll_of_forall (σ := σ) _ .or hor _ hors
    rw [Expr.compile_node, Fragment.chain, Expr.strictParts, Expr.meaning_node]
    simp only [List.flatten_append, List.append_assoc, Conjunction.joined_cons,
      Conjunction.joined_nil, Option.merge_none_right]
    exact hmaps.append ((hands.spliced c).append ((hnots.negated c).append
      ((hnors.negated c).append (hors.grouped c))))

end

/-! ## Queries -/

section

variable (options : CompilerOptions) (keys : Keys) (q : Query)

/-- The conditions of a query are readable, if its alias and its fields are plain. -/
theorem Query.readable (htable : IsPlain options.table)
    (hfields : ∀ f ∈ q.filter.fields, IsPlain f) :
    ∀ c ∈ q.filter.conditions 0,
      Readable (q.compile options keys).params.get? options.naming c := by
  intro c hc
  have hfield : c.field ∈ q.filter.fields :=
    (q.filter.fields_conditions_perm 0).subset (List.mem_map_of_mem hc)
  refine ⟨IsPlain.column htable (hfields _ hfield), fun b hb => ?_⟩
  exact q.get?_params_of_mem_bindings options keys (List.mem_filterMap.mpr ⟨c, hc, hb⟩)

/-- Keys are read as what they mean, if there are any. -/
theorem Query.exists_readsAs_keys (σ : Answers) (htable : IsPlain options.table)
    (hkeys : ∀ k ∈ keys.fields, IsPlain k) (hfresh : ∀ k ∈ keys.fields, k ∉ q.filter.parameters)
    (hne : keys.entries ≠ []) :
    ∃ v, keys.meaning σ options.naming = some v ∧
      ReadsAs σ (q.compile options keys).params.get? (.joined .and)
        (keys.template.lexemes options.naming) v := by
  have hreads : ∀ e ∈ keys.entries, ReadsAs σ (q.compile options keys).params.get? .factor
      (Template.lexemes options.naming (keyTemplate e.1))
      (σ (options.naming.column e.1) (.compare Operator.eq.token e.2.toJson)) := by
    intro e he
    have hfield : e.1 ∈ keys.fields := List.mem_map_of_mem he
    have hbound := q.get?_params_of_mem_keys options keys
      (List.mem_map_of_mem (f := fun e => (e.1, e.2.toJson)) he) (hfresh e.1 hfield)
    exact readsAs_compare (IsPlain.column htable (hkeys _ hfield)) (by decide) hbound
  have hjoined := exists_readsAs_joined .and hne hreads
  have htemplate : keys.template =
      Template.joined (.link .and) (keys.entries.map fun e => keyTemplate e.1) := by
    rw [Keys.template, FieldMap.fields, List.map_map]
    rfl
  rwa [htemplate]

/-- The template of a query is read as what the query means, or is empty if the query means
nothing.

**Proof sketch.** By cases on what there is. Without keys the template is that of the filter, which
is read as what it means or is empty (`Expr.says`). With keys and no filter it is that of the keys.
With both, each is read under the conjunction that joins them, so the two in a row are read as its
value at both meanings. -/
theorem Query.template_reads (σ : Answers) (htable : IsPlain options.table)
    (hkeys : ∀ k ∈ keys.fields, IsPlain k) (hfields : ∀ f ∈ q.filter.fields, IsPlain f)
    (hfresh : ∀ k ∈ keys.fields, k ∉ q.filter.parameters) :
    (q.template keys = [] ∧ q.meaning σ options.naming keys = none) ∨
      ∃ v, q.meaning σ options.naming keys = some v ∧
        ReadsAs σ (q.compile options keys).params.get? (.joined .or)
          (Template.lexemes options.naming (q.template keys)) v := by
  have hfilter := q.filter.says (σ := σ) .and 0 (q.readable options keys htable hfields)
  generalize hm : q.filter.meaning σ options.naming .and = m at hfilter
  generalize hchain : (q.filter.compile .and 0).chain = chain at hfilter
  rw [Query.template, joinTemplates, Query.meaning, q.filter.isAlternative_compile, hm, hchain]
  generalize (if q.filter.standsAsAlternative = true then Conjunction.or else .and) = c
  by_cases hkeysEmpty : keys.entries = []
  · have hnone : keys.meaning σ options.naming = none := by simp [Keys.meaning, hkeysEmpty]
    rw [if_pos (keys.template_eq_nil_iff.mpr hkeysEmpty), hnone]
    cases hfilter with
    | nothing => exact .inl ⟨rfl, rfl⟩
    | @something t rest v hjoined _ => exact .inr ⟨v, by simp, hjoined.joined_or⟩
  · obtain ⟨v, hv, hreads⟩ := q.exists_readsAs_keys options keys σ htable hkeys hfresh hkeysEmpty
    rw [if_neg fun h => hkeysEmpty (keys.template_eq_nil_iff.mp h), hv]
    right
    cases hfilter with
    | nothing => exact ⟨v, by simp, by simpa using hreads.joined_or⟩
    | @something t rest w hjoined _ =>
      have hne : Chain.template ((.and, t) :: rest) ≠ [] := by
        intro h
        obtain ⟨f, hf, -⟩ := hjoined
        rw [h] at hf
        exact hf.ne_nil rfl
      refine ⟨c.apply v w, by simp, ?_⟩
      rw [if_neg hne]
      have hboth := ((hreads.joined_of_and c).append (hjoined.joined_of_and c)).joined_or
      simpa [Segment.lexemes] using hboth

/-- The lexemes of the condition of a query with plain names are those of its template. -/
theorem Query.lexemes_condition (htable : IsPlain options.table)
    (hkeys : ∀ k ∈ keys.fields, IsPlain k) (hfields : ∀ f ∈ q.filter.fields, IsPlain f) :
    lexemes (q.compile options keys).condition.toList =
      Template.lexemes options.naming (q.template keys) := by
  rw [← q.chars_template options keys]
  exact Template.lexemes_chars options.naming (q.separated_template keys)
    (Query.plain_column htable hkeys hfields) (Query.plain_parameter hkeys hfields)

/-- **Compiling preserves meaning.** The condition of a compiled query has exactly one reading with
the precedence of SQL, and under all answers to the tests of its columns the value of that reading is
the meaning of keys and query; it is empty exactly if these mean nothing.

**Proof sketch.** The lexemes of the condition are those of its template, and these are read as what
the query means, under any answers. Since there is only one reading, it does not depend on the
answers. -/
theorem Query.condition_reading (htable : IsPlain options.table)
    (hkeys : ∀ k ∈ keys.fields, IsPlain k) (hfields : ∀ f ∈ q.filter.fields, IsPlain f)
    (hfresh : ∀ k ∈ keys.fields, k ∉ q.filter.parameters) :
    ∃ reading, IsReading (q.compile options keys).condition reading ∧
      (∀ other, IsReading (q.compile options keys).condition other → other = reading) ∧
      ∀ σ, reading.map (Formula.value? σ (q.compile options keys).params.get?) =
        (q.meaning σ options.naming keys).map some := by
  have hlexemes := q.lexemes_condition options keys htable hkeys hfields
  have hall (σ : Answers) : ∃ reading, IsReading (q.compile options keys).condition reading ∧
      reading.map (Formula.value? σ (q.compile options keys).params.get?) =
        (q.meaning σ options.naming keys).map some := by
    rcases q.template_reads options keys σ htable hkeys hfields hfresh with
      ⟨htemplate, hmeaning⟩ | ⟨v, hmeaning, f, hf, hv⟩
    · refine ⟨none, .nothing ?_, by rw [hmeaning]; rfl⟩
      rw [hlexemes, htemplate, Template.lexemes_nil]
    · exact ⟨some f, .formula (hlexemes ▸ hf), by rw [hmeaning, Option.map_some, hv]; rfl⟩
  obtain ⟨reading, hreading, -⟩ := hall fun _ _ => .unknown
  refine ⟨reading, hreading, fun other hother => hother.unique hreading, fun σ => ?_⟩
  obtain ⟨other, hother, hvalue⟩ := hall σ
  rw [hreading.unique hother]
  exact hvalue

end

/-- The maps of a node that uses one operator. -/
def OperatorMaps.single (o : Operator) (m : FieldMap o.Operand) : OperatorMaps :=
  fun o' => if h : o' = o then some (h ▸ m) else Option.none

/-- A filter that stands as an alternative: an `or` whose items splice an `and` list and negate a node
of two terms. -/
def nestedFilter : Expr :=
  .node .none none none none (some
    [.node (.single .eq (.ofList [("a", .str "x")])) none none
      (some [.node (.single .gt (.ofList [("b", .bool true)])) none none none none,
        .node (.single .null (.ofList [("c", true)])) none none none none]) none,
     .node .none (some (.node (.single .member (.ofList [("d", [.str "u"]), ("e", [.str "v"])]))
      (some (.node (.single .like (.ofList [("f", "%")])) none none none none)) none none none))
      none none none])

/-- Keys and a nested filter have a condition with one reading, and it has their meaning. -/
theorem Query.condition_reading_nestedFilter :
    let keys : Keys := .ofList [("tenant", .str "acme")]
    let q : Query := { Query.empty with filter := nestedFilter }
    (q.compile .default keys).condition =
        "target.tenant = :tenant OR ((target.a = :a_2_0) OR (target.b > :b_3_0) AND " ++
          "(target.c IS NULL) OR NOT ((target.d IN (:d_6_0) AND target.e IN (:e_6_1)) AND " ++
          "NOT (target.f LIKE :f_7_0)))" ∧
      ∃ reading, IsReading (q.compile .default keys).condition reading ∧
        (∀ other, IsReading (q.compile .default keys).condition other → other = reading) ∧
        ∀ σ, reading.map (Formula.value? σ (q.compile .default keys).params.get?) =
          (q.meaning σ CompilerOptions.default.naming keys).map some :=
  ⟨by decide +kernel, Query.condition_reading .default _ _ (by decide) (by decide) (by decide)
    (by decide)⟩

end SqlFilter
