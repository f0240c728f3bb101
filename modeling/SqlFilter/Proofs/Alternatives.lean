import SqlFilter.Proofs.Preorder
import SqlFilter.Proofs.Readings
import SqlFilter.Proofs.Units

set_option relaxedAutoImplicit false
set_option autoImplicit false

/-!
# Filters that stand as alternatives

Keys are joined to a filter by `AND`, unless the filter stands as an alternative to them. Which filters
do is told by the shape of the root alone. Such a filter is a single unit, so that `OR` joins all keys
together with the whole filter.

## Design

The text of a unit shows its parentheses, but texts are read only where their names are plain. So the
shape of an alternative is stated for all names, on its template, and its reading for plain names.

## Main definitions

* `Expr.Contributes` — some field is tested in a tree.
* `Fragment.IsSingle`, `Fragment.IsAlternativeTo` — what an alternative is in itself and to keys.

## Main results

* `Expr.standsAsAlternative_iff`, `Expr.standsAsAlternative_congr` — which trees stand as alternatives,
  and what this depends on.
* `Expr.isSingle_of_isAlternative`, `joinKeys_of_isAlternative` — the shape of an alternative, and the
  text of keys and an alternative.
* `Expr.exists_reads_text`, `isReading_or_iff` — how an alternative is read, alone and joined to keys.
* `Scope.isAlternative_filter` — all of this for a filter that is compiled in any scope.
-/

namespace SqlFilter

/-! ## Which trees stand as alternatives -/

namespace Expr

/-- A tree contributes if some field is tested in it. -/
def Contributes (e : Expr) : Prop := e.fields ≠ []

/-- No field is tested in a list of trees exactly if none of them contributes. -/
theorem fieldsAll_eq_nil_iff (es : List Expr) : fieldsAll es = [] ↔ ∀ e ∈ es, ¬ e.Contributes := by
  induction es with
  | nil => simp [fieldsAll]
  | cons e es ih => simp [fieldsAll, ih, Contributes]

variable (maps : OperatorMaps) (not nor : Option Expr) (and or : Option (List Expr))

/-- **Which trees stand as alternatives**: those whose root has no operator map with a field, no `and`
item and no `not` child that contributes, and either a `nor` child that contributes and no `or`, or an
`or` item that contributes and no `nor`. -/
theorem standsAsAlternative_iff :
    (Expr.node maps not nor and or).standsAsAlternative = true ↔
      (∀ o, ∀ m ∈ maps o, m.isEmpty = true) ∧
        (∀ items ∈ and, ∀ e ∈ items, ¬ e.Contributes) ∧ (∀ e ∈ not, ¬ e.Contributes) ∧
        ((∃ e ∈ nor, e.Contributes) ∧ or = none ∨
          nor = none ∧ ∃ items ∈ or, ∃ e ∈ items, e.Contributes) := by
  have hchild (child : Option Expr) :
      fieldsAll child.toList = [] ↔ ∀ e ∈ child, ¬ e.Contributes := by
    rw [fieldsAll_eq_nil_iff]
    simp
  have hitems (list : Option (List Expr)) :
      fieldsAll (list.getD []) = [] ↔ ∀ items ∈ list, ∀ e ∈ items, ¬ e.Contributes := by
    rw [fieldsAll_eq_nil_iff]
    cases list <;> simp
  simp only [standsAsAlternative, Bool.and_eq_true, Bool.or_eq_true, Bool.not_eq_true',
    List.isEmpty_iff, List.isEmpty_eq_false_iff, Option.isNone_iff_eq_none, ne_eq, hchild, hitems,
    maps.fields_eq_nil_iff_isEmpty, not_forall, not_not, exists_prop]
  constructor
  · rintro ⟨⟨⟨hmaps, hand⟩, hnot⟩, hnor | ⟨hor, hnone⟩⟩
    · exact ⟨hmaps, hand, hnot, .inl hnor⟩
    · exact ⟨hmaps, hand, hnot, .inr ⟨hnone, hor⟩⟩
  · rintro ⟨hmaps, hand, hnot, hnor | ⟨hnone, hor⟩⟩
    · exact ⟨⟨⟨hmaps, hand⟩, hnot⟩, .inl hnor⟩
    · exact ⟨⟨⟨hmaps, hand⟩, hnot⟩, .inr ⟨hor, hnone⟩⟩

/-- **Of its children only which of them contribute** decides whether a tree stands as an alternative:
not how they look, and not whether they stand as alternatives themselves.

**Proof sketch.** A list of children has no field exactly if none of them contributes, so equal
contributions give equal answers for every child and every list. Whether `nor` and `or` are there at
all is the same too, and nothing else enters `standsAsAlternative`. -/
theorem standsAsAlternative_congr {not' nor' : Option Expr} {and' or' : Option (List Expr)}
    (hnot : not'.map Contributes = not.map Contributes)
    (hnor : nor'.map Contributes = nor.map Contributes)
    (hand : and'.map (List.map Contributes) = and.map (List.map Contributes))
    (hor : or'.map (List.map Contributes) = or.map (List.map Contributes)) :
    (Expr.node maps not' nor' and' or').standsAsAlternative =
      (Expr.node maps not nor and or).standsAsAlternative := by
  have hlist {es es' : List Expr} (h : es'.map Contributes = es.map Contributes) :
      (fieldsAll es').isEmpty = (fieldsAll es).isEmpty := by
    have hmap (es : List Expr) : fieldsAll es = [] ↔ ∀ p ∈ es.map Contributes, ¬ p := by
      rw [fieldsAll_eq_nil_iff, List.forall_mem_map]
    rw [Bool.eq_iff_iff, List.isEmpty_iff, List.isEmpty_iff, hmap, hmap, h]
  have hchild {child child' : Option Expr} (h : child'.map Contributes = child.map Contributes) :
      (fieldsAll child'.toList).isEmpty = (fieldsAll child.toList).isEmpty := by
    refine hlist ?_
    rw [← Option.toList_map, h, Option.toList_map]
  have hitems {list list' : Option (List Expr)}
      (h : list'.map (List.map Contributes) = list.map (List.map Contributes)) :
      (fieldsAll (list'.getD [])).isEmpty = (fieldsAll (list.getD [])).isEmpty := by
    have hgetD (list : Option (List Expr)) :
        (list.getD []).map Contributes = (list.map (List.map Contributes)).getD [] := by
      cases list <;> rfl
    refine hlist ?_
    rw [hgetD, h, hgetD]
  have hnorNone : nor'.isNone = nor.isNone := by simpa using congrArg Option.isNone hnor
  have horNone : or'.isNone = or.isNone := by simpa using congrArg Option.isNone hor
  rw [standsAsAlternative, standsAsAlternative, hchild hnot, hchild hnor, hitems hand, hitems hor,
    hnorNone, horNone]

end Expr

/-! ## The shape of an alternative -/

/-- A fragment is single if it has one part of one term, which is written as a unit that is negated, or
as something balanced in parentheses, whatever columns are called. -/
structure Fragment.IsSingle (f : Fragment) : Prop where
  parts : f.parts.length = 1
  terms : f.terms = 1
  unit : ∃ t inner : Template,
    (inner.IsUnit ∧ t = .not :: inner ∨ inner.Balanced ∧ t = .opening :: (inner ++ [.closing])) ∧
      ∀ naming, t.chars naming = (f.text naming).toList

/-- A single fragment is not written as an empty text. -/
theorem Fragment.IsSingle.text_ne_empty {f : Fragment} (h : f.IsSingle) (naming : Naming) :
    f.text naming ≠ "" := by
  obtain ⟨t, inner, ht, hchars⟩ := h.unit
  rw [ne_eq, ← String.toList_eq_nil_iff, ← hchars, Template.chars_eq_nil_iff]
  rcases ht with ⟨-, rfl⟩ | ⟨-, rfl⟩ <;> exact List.cons_ne_nil _ _

namespace Expr

/-- **An alternative has one part of one term**: a negation, or a group in parentheses.

**Proof sketch.** Where a fragment is an alternative, everything before `nor` and `or` says nothing, and
one of these two is absent. -/
theorem parts_of_isAlternative {e : Expr} {c : Conjunction} {before : Nat}
    (h : (e.compile c before).isAlternative = true) :
    ∃ inner : Chain, (e.compile c before).parts = [[(c, .not inner)]] ∨
      (e.compile c before).parts = [[(c, .group inner)]] := by
  obtain ⟨maps, not, nor, and, or⟩ := e
  rw [compile_node] at h ⊢
  simp only [Bool.and_eq_true, Bool.or_eq_true, Bool.not_eq_true', List.isEmpty_iff,
    Option.isNone_iff_eq_none] at h
  obtain ⟨hstrict, ⟨hnors, rfl⟩ | ⟨hors, rfl⟩⟩ := h
  · refine ⟨compileAll nor.toList .or (beforeNor not and before), .inl ?_⟩
    simp [hstrict, Chain.negated, Chain.grouped, hnors, compileAll]
  · refine ⟨compileAll (or.getD []) .or (beforeOr not none and before), .inr ?_⟩
    simp [hstrict, Chain.negated, Chain.grouped, hors, compileAll]

/-- The template of an alternative is a unit that is negated, or something in parentheses.

**Proof sketch.** The only part is the negation or the group of a chain (`parts_of_isAlternative`),
and it is a unit. A unit that begins with `NOT` is a unit behind it, and one that begins with a
parenthesis has a balanced template between its parentheses. -/
theorem template_of_isAlternative {e : Expr} {c : Conjunction} {before : Nat}
    (h : (e.compile c before).isAlternative = true) :
    ∃ inner : Template,
      inner.IsUnit ∧ (e.compile c before).chain.template = .not :: inner ∨
        inner.Balanced ∧
          (e.compile c before).chain.template = .opening :: (inner ++ [.closing]) := by
  obtain ⟨chain, hparts⟩ := parts_of_isAlternative h
  have hunit := e.isUnit_of_mem_compile c before
  rw [Fragment.chain] at hunit ⊢
  rcases hparts with hparts | hparts
  · rw [hparts] at hunit ⊢
    have hterm : (Term.not chain).template.IsUnit := hunit (c, .not chain) (by simp)
    have htemplate : ∃ inner, (Term.not chain).template = .not :: inner := by
      rw [Term.template]
      split <;> exact ⟨_, rfl⟩
    obtain ⟨inner, hinner⟩ := htemplate
    rw [hinner] at hterm
    cases hterm with
    | not hterm =>
      refine ⟨inner, .inl ⟨hterm, ?_⟩⟩
      simp [Chain.template_cons, linkedTemplate, hinner]
  · rw [hparts] at hunit ⊢
    have hterm : (Term.group chain).template.IsUnit := hunit (c, .group chain) (by simp)
    have hbalanced : chain.template.Balanced := by
      generalize htemplate : (Term.group chain).template = t at hterm
      rw [Term.template_group] at htemplate
      cases hterm with
      | not hterm => simp at htemplate
      | parenthesized hbalanced =>
        obtain rfl := by simpa using htemplate
        exact hbalanced
    refine ⟨chain.template, .inr ⟨hbalanced, ?_⟩⟩
    simp [Chain.template_cons, linkedTemplate, Term.template_group]

/-- **An alternative is single.** -/
theorem isSingle_of_isAlternative {e : Expr} {c : Conjunction} {before : Nat}
    (h : (e.compile c before).isAlternative = true) : (e.compile c before).IsSingle := by
  obtain ⟨chain, hparts⟩ := parts_of_isAlternative h
  obtain ⟨inner, hinner⟩ := template_of_isAlternative h
  refine ⟨?_, ?_, (e.compile c before).chain.template, inner, hinner, fun naming =>
    Chain.chars_template naming _⟩
  · rcases hparts with hparts | hparts <;> rw [hparts] <;> rfl
  · rw [Fragment.terms, Fragment.chain]
    rcases hparts with hparts | hparts <;> rw [hparts] <;> rfl

end Expr

/-! ## How keys and an alternative are read -/

section

variable {naming : Naming}

/-- The lexemes of keys with plain names are those of their template. -/
theorem Keys.lexemes_keysText {keys : Keys} (htable : IsPlain naming.table)
    (hkeys : ∀ k ∈ keys.fields, IsPlain k) :
    lexemes (Scope.keysText naming keys).toList = Template.lexemes naming keys.template := by
  have hpicked {f : Segment → Option String} (hlink : f (.link .and) = none)
      (hkey : ∀ k, (keyTemplate k).filterMap f = [k]) : keys.template.filterMap f = keys.fields := by
    rw [Keys.filterMap_template hlink]
    simp only [hkey]
    exact (List.flatMap_pure_eq_map id keys.fields).trans (List.map_id _)
  have hfields : keys.template.fields = keys.fields := hpicked rfl fun _ => rfl
  have hparameters : keys.template.parameters = keys.fields := hpicked rfl fun _ => rfl
  rw [← keys.chars_template naming]
  refine Template.lexemes_chars naming keys.separated_template (fun f hf => ?_) fun p hp => ?_
  · exact IsPlain.column htable (hkeys f (hfields ▸ hf))
  · exact hkeys p (hparameters ▸ hp)

/-- **Keys with plain names are read as a chain of `AND`.** -/
theorem Keys.exists_reads_keysText {keys : Keys} (htable : IsPlain naming.table)
    (hkeys : ∀ k ∈ keys.fields, IsPlain k) (hne : keys.entries ≠ []) :
    ∃ g, Reads (.joined .and) (lexemes (Scope.keysText naming keys).toList) g := by
  have hfresh : ∀ k ∈ keys.fields, k ∉ Query.empty.filter.parameters := by
    intro k _ hk
    rw [show Query.empty.filter.parameters = [] by decide] at hk
    simp at hk
  obtain ⟨-, -, g, hg, -⟩ := Query.empty.exists_readsAs_keys
    ⟨naming.table, naming.quote, .insertion⟩ keys (fun _ _ => .unknown) htable hkeys hfresh hne
  exact ⟨g, Keys.lexemes_keysText htable hkeys ▸ hg⟩

/-- **A filter of a single term with plain names is read as something that needs no parentheses.**

**Proof sketch.** Whatever the answers are, the chain of the filter says what the filter means, and a
chain of one term is read at the tightest level. -/
theorem Expr.exists_reads_text (e : Expr) {c : Conjunction} {before : Nat}
    (htable : IsPlain naming.table) (hfields : ∀ f ∈ e.fields, IsPlain f)
    (hterms : (e.compile c before).terms = 1) :
    ∃ f, Reads .factor (lexemes ((e.compile c before).text naming).toList) f := by
  have hplain : ∀ d ∈ e.conditions before, IsPlain d.field := fun d hd =>
    hfields _ ((e.fields_conditions_perm before).subset (List.mem_map_of_mem hd))
  let bindings := (e.conditions before).filterMap Condition.binding?
  have hnodup : (bindings.map Prod.fst).Nodup := (e.placed_conditions before).nodup_bindings
  have hreadable : ∀ d ∈ e.conditions before,
      Readable (FieldMap.empty.insertAll bindings).get? naming d := fun d hd =>
    ⟨IsPlain.column htable (hplain d hd), fun b hb =>
      FieldMap.get?_insertAll_of_mem _ hnodup (List.mem_filterMap.mpr ⟨d, hd, hb⟩)⟩
  have hlexemes : lexemes ((e.compile c before).text naming).toList =
      Template.lexemes naming (e.compile c before).chain.template := by
    have htext : (e.compile c before).chain.template.chars naming =
        ((e.compile c before).text naming).toList := Chain.chars_template naming _
    rw [← htext]
    refine Template.lexemes_chars naming (Chain.closed_template _).separated (fun f hf => ?_)
      fun p hp => ?_
    · rw [Chain.fields_template, conditions_compile] at hf
      obtain ⟨d, hd, rfl⟩ := List.mem_map.mp hf
      exact (hreadable d hd).plain
    · obtain ⟨d, hd, rfl⟩ := Chain.exists_of_mem_parameters hp
      rw [conditions_compile] at hd
      exact (hplain d hd).parameter
  rw [hlexemes]
  have hsays := e.says (σ := fun _ _ => .unknown) c before hreadable
  rw [Fragment.terms] at hterms
  generalize (e.compile c before).chain = chain, e.meaning _ naming c = m at hterms hsays
  cases hsays with
  | nothing => simp at hterms
  | something hjoined hfactor =>
    obtain ⟨f, hf, -⟩ := hfactor (by simpa using hterms)
    exact ⟨f, hf⟩

/-- **Two conditions joined by `OR`** are read as the disjunction of what each of them is read as, and
as nothing else, if the left one is a chain of `AND` and the right one needs no parentheses. -/
theorem isReading_or_iff {left right : String} {g f : Formula}
    (hleft : Reads (.joined .and) (lexemes left.toList) g)
    (hright : Reads .factor (lexemes right.toList) f) (reading : Option Formula) :
    IsReading (left ++ Conjunction.or.separator ++ right) reading ↔
      reading = some (.join .or g f) := by
  have hlexemes : lexemes (left ++ Conjunction.or.separator ++ right).toList =
      lexemes left.toList ++ .word Conjunction.or.keyword :: lexemes right.toList := by
    have hbefore : Seam left.toList (Conjunction.or.separator.toList ++ right.toList) :=
      Seam.atStart left.toList _ ' ' (by decide)
    have hafter := Seam.of_getLast? (a := Conjunction.or.separator.toList) (by decide) right.toList
    rw [String.toList_append, String.toList_append, List.append_assoc, lexemes_append hbefore,
      lexemes_append hafter]
    rfl
  have hjoined : IsReading (left ++ Conjunction.or.separator ++ right) (some (.join .or g f)) := by
    refine .formula ?_
    rw [hlexemes]
    exact Reads.join (c := .or) hleft (.lift (.lift (c := .and) hright))
  constructor
  · intro hreading
    exact hreading.unique hjoined
  · rintro rfl
    exact hjoined

/-- The template of keys is balanced. -/
theorem Keys.balanced_template (keys : Keys) : keys.template.Balanced := by
  refine .joined_link .and fun t ht => ?_
  obtain ⟨field, -, rfl⟩ := List.mem_map.mp ht
  exact .cons nofun nofun (.cons nofun nofun (.segment nofun nofun))

/-- Keys are linked by `AND` only. -/
theorem Keys.link_or_notMem_template (keys : Keys) : Segment.link .or ∉ keys.template := by
  intro hmem
  have hpicked : keys.template.filterMap (fun | .link .or => some () | _ => none) = [] := by
    rw [Keys.filterMap_template rfl]
    simp [keyTemplate]
  rw [List.filterMap_eq_nil_iff] at hpicked
  simpa using hpicked _ hmem

/-- **Keys and an alternative** are joined by `OR`. -/
theorem joinKeys_of_isAlternative {f : Fragment} {keys : Keys} (halternative : f.isAlternative = true)
    (hf : f.text naming ≠ "") (hkeys : keys.entries ≠ []) :
    joinKeys naming (Scope.keysText naming keys) f =
      Scope.keysText naming keys ++ Conjunction.or.separator ++ f.text naming := by
  have hkeysText : Scope.keysText naming keys ≠ "" := fun h =>
    hkeys ((keys.keysText_eq_empty_iff naming).mp h)
  simp [joinKeys, hkeysText, hf, halternative]

end

/-! ## Filters of a scope -/

/-- **Keys and a filter are alternatives as wholes**: the text of both is that of the keys, `OR`, and
that of the filter. All keys are linked by `AND`, whatever they are called. Where the names of the keys
and the fields of the filter are plain, the only reading is the disjunction of a chain of `AND`, which
is all the keys, and of something that needs no parentheses, which is all the filter. -/
structure Fragment.IsAlternativeTo (naming : Naming) (fields : List String) (f : Fragment)
    (keys : Keys) : Prop where
  text : joinKeys naming (Scope.keysText naming keys) f =
    Scope.keysText naming keys ++ " OR " ++ f.text naming
  linked : ∃ t : Template, t.Balanced ∧ .link .or ∉ t ∧
    t.chars naming = (Scope.keysText naming keys).toList
  reading : IsPlain naming.table → (∀ k ∈ keys.fields, IsPlain k) → (∀ x ∈ fields, IsPlain x) →
    ∃ g h, Reads (.joined .and) (lexemes (Scope.keysText naming keys).toList) g ∧
      Reads .factor (lexemes (f.text naming).toList) h ∧
      ∀ reading, IsReading (joinKeys naming (Scope.keysText naming keys) f) reading ↔
        reading = some (.join .or g h)

/-- **Which filters stand as alternatives.** Let a filter be compiled in any scope and under any
conjunction.

- It is an alternative exactly if its root has no operator map with a field, no `and` item and no `not`
  child that contributes, and either a `nor` child that contributes and no `or`, or no `nor` and an `or`
  item that contributes.
- If it is one, it has one part of one term, which is written as a negated unit or as a group in
  parentheses; and it is an alternative to all the keys that it is joined to.
- Nothing of its children but which of them contribute decides whether it is one. So it does not matter
  whether they are alternatives themselves.

**Proof sketch.** What says nothing is left out of a fragment, and a tree says something if some field is
tested in it. In an alternative all that comes before `nor` and `or` says nothing and one of these is
absent, so that the other one is its only term. -/
theorem Scope.isAlternative_filter (s : Scope) (c : Conjunction) (maps : OperatorMaps)
    (not nor : Option Expr) (and or : Option (List Expr)) :
    let e := Expr.node maps not nor and or
    let fragment := (s.filter c (some e)).1
    (fragment.isAlternative = true ↔
      (∀ o, ∀ m ∈ maps o, m.isEmpty = true) ∧
        (∀ items ∈ and, ∀ e ∈ items, ¬ e.Contributes) ∧ (∀ e ∈ not, ¬ e.Contributes) ∧
        ((∃ e ∈ nor, e.Contributes) ∧ or = none ∨
          nor = none ∧ ∃ items ∈ or, ∃ e ∈ items, e.Contributes)) ∧
    (fragment.isAlternative = true →
      fragment.IsSingle ∧
        ∀ keys : Keys, keys.entries ≠ [] → fragment.IsAlternativeTo s.naming e.fields keys) ∧
    ∀ (s' : Scope) (c' : Conjunction) (not' nor' : Option Expr) (and' or' : Option (List Expr)),
      not'.map Expr.Contributes = not.map Expr.Contributes →
      nor'.map Expr.Contributes = nor.map Expr.Contributes →
      and'.map (List.map Expr.Contributes) = and.map (List.map Expr.Contributes) →
      or'.map (List.map Expr.Contributes) = or.map (List.map Expr.Contributes) →
      (s'.filter c' (some (.node maps not' nor' and' or'))).1.isAlternative =
        fragment.isAlternative := by
  intro e fragment
  have hflag (s : Scope) (c : Conjunction) (e : Expr) :
      (s.filter c (some e)).1.isAlternative = e.standsAsAlternative :=
    e.isAlternative_compile c s.visited
  refine ⟨?_, fun halternative => ⟨?_, fun keys hkeys => ?_⟩, ?_⟩
  · rw [hflag, Expr.standsAsAlternative_iff]
  · exact Expr.isSingle_of_isAlternative halternative
  · have hsingle : fragment.IsSingle := Expr.isSingle_of_isAlternative halternative
    have hjoined := joinKeys_of_isAlternative halternative (hsingle.text_ne_empty s.naming) hkeys
    refine ⟨hjoined, ⟨keys.template, keys.balanced_template, keys.link_or_notMem_template,
      keys.chars_template s.naming⟩, fun htable hkeysPlain hfields => ?_⟩
    obtain ⟨g, hg⟩ := Keys.exists_reads_keysText htable hkeysPlain hkeys
    obtain ⟨f, hf⟩ := e.exists_reads_text htable hfields hsingle.terms
    refine ⟨g, f, hg, hf, fun reading => ?_⟩
    rw [hjoined]
    exact isReading_or_iff hg hf reading
  · intro s' c' not' nor' and' or' hnot hnor hand hor
    rw [hflag, hflag]
    exact Expr.standsAsAlternative_congr maps not nor and or hnot hnor hand hor

/-- A lone `nor` is an alternative to its keys. Its child is one too, but is so in vain: the `nor` also
stands as an alternative with a child that is none. -/
theorem Scope.isAlternative_filter_loneNor :
    let leaf := Expr.node (.single .eq (.ofList [("a", .str "x")])) none none none none
    let child := Expr.node .none none none none (some [leaf, leaf])
    let s := Scope.start CompilerOptions.default.naming
    let f := (s.filter .and (some (.node .none none (some child) none none))).1
    let keys : Keys := .ofList [("tenant", .str "acme"), ("region", .str "eu")]
    f.isAlternative = true ∧ f.IsSingle ∧
      (∃ g h, Reads (.joined .and) (lexemes (Scope.keysText s.naming keys).toList) g ∧
        Reads .factor (lexemes (f.text s.naming).toList) h ∧
        ∀ reading, IsReading (joinKeys s.naming (Scope.keysText s.naming keys) f) reading ↔
          reading = some (.join .or g h)) ∧
      joinKeys s.naming (Scope.keysText s.naming keys) f =
        "target.tenant = :tenant AND target.region = :region OR " ++
          "NOT ((target.a = :a_3_0) OR (target.a = :a_4_0))" ∧
      child.standsAsAlternative = true ∧ leaf.standsAsAlternative = false ∧
      (s.filter .or (some (.node .none none (some leaf) none none))).1.isAlternative = true := by
  intro leaf child s f keys
  have hcontributes : leaf.Contributes = child.Contributes :=
    propext (iff_of_true (show leaf.fields ≠ [] by decide) (show child.fields ≠ [] by decide))
  obtain ⟨-, halternative, hsame⟩ :=
    Scope.isAlternative_filter s .and .none none (some child) none none
  have hflag : f.isAlternative = true := by decide +kernel
  obtain ⟨hsingle, hkeys⟩ := halternative hflag
  have hreplaced := hsame s .or none (some leaf) none none rfl (congrArg some hcontributes) rfl rfl
  exact ⟨hflag, hsingle, (hkeys keys (by decide)).reading (by decide) (by decide) (by decide),
    by decide +kernel, by decide, by decide, hreplaced.trans hflag⟩

end SqlFilter
