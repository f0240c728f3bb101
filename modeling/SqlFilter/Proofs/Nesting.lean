import SqlFilter.Proofs.Depth
import SqlFilter.Proofs.Json.Brackets
import SqlFilter.Proofs.Records

set_option relaxedAutoImplicit false
set_option autoImplicit false

/-!
# How deep filters of texts are

A filter that is decoded from a document is no deeper than the document is nested: a child is a member of
an object or an item of an array, whichever way a node is written, and so are the nodes of a list. A
document that is decoded to a query is itself nested within the bound of the reader of queries, since all
its members are looked at.

## Main results

* `Json.Document.nesting_lt_of_record?` — the fields of a record are nested less than the record.
* `Expr.depth_le_nesting` — a filter is no deeper than its document is nested.
* `Query.nesting_le_of_decode` — a document that is decoded to a query is nested within the budget.
* `Query.parse_eq_ok_iff` — which texts have a query within limits.
* `Query.depth_le_openBrackets` — what this says of the filters of texts and of walks through them.
-/

namespace SqlFilter

open Json Json.Document Json.Decoder

/-! ## The nesting of documents -/

namespace Json.Document

/-- Items are nested within a bound if each of them is. -/
theorem itemNesting_le_iff {items : List Document} {n : Nat} :
    itemNesting items ≤ n ↔ ∀ d ∈ items, d.nesting ≤ n := by
  induction items with
  | nil => simp [itemNesting]
  | cons d items ih => rw [itemNesting, Nat.max_le, ih, List.forall_mem_cons]

/-- Members are nested within a bound if each of them is. -/
theorem memberNesting_le_iff {members : List (Option String × Document)} {n : Nat} :
    memberNesting members ≤ n ↔ ∀ m ∈ members, m.2.nesting ≤ n := by
  induction members with
  | nil => simp [memberNesting]
  | cons m members ih => rw [memberNesting, Nat.max_le, ih, List.forall_mem_cons]

/-- An item is nested less than its array. -/
theorem nesting_lt_of_mem_items {items : List Document} {d : Document} (h : d ∈ items) :
    d.nesting < (arr items).nesting := by
  have hle := itemNesting_le_iff.mp (Nat.le_refl (itemNesting items)) d h
  rw [nesting]
  omega

/-- A member is nested less than its object. -/
theorem nesting_lt_of_mem_members {members : List (Option String × Document)}
    {m : Option String × Document} (h : m ∈ members) : m.2.nesting < (obj members).nesting := by
  have hle := memberNesting_le_iff.mp (Nat.le_refl (memberNesting members)) m h
  rw [nesting]
  omega

/-- A member that is found is one of the members. -/
theorem exists_mem_of_findMember {name : String} {members : List (Option String × Document)}
    {d : Document} (h : findMember name members = some d) : (some name, d) ∈ members := by
  obtain ⟨⟨name', d'⟩, hfind, rfl⟩ := Option.map_eq_some_iff.mp h
  obtain rfl : name' = some name := by simpa using List.find?_some hfind
  exact List.mem_of_find?_eq_some hfind

/-- A member is found under its name, if no other one has this name. -/
theorem findMember_of_mem {names : List String} {name : String} {d : Document}
    {members : List (Option String × Document)} (hdistinct : distinctMembers names members = true)
    (hname : name ∈ names) (h : (some name, d) ∈ members) : findMember name members = some d := by
  have hcount : countMembers name members ≤ 1 := by
    simp only [distinctMembers, Bool.and_eq_true, List.all_eq_true, decide_eq_true_eq] at hdistinct
    exact hdistinct.2 name hname
  have hmem : (some name, d) ∈ members.filter fun m => m.1 = some name :=
    List.mem_filter.mpr ⟨h, by simp⟩
  rw [countMembers, List.countP_eq_length_filter] at hcount
  rw [findMember, ← List.head?_filter]
  generalize members.filter (fun m => m.1 = some name) = found at hcount hmem ⊢
  cases found with
  | nil => simp at hmem
  | cons m others =>
    rw [List.length_cons] at hcount
    obtain rfl : others = [] := List.length_eq_zero_iff.mp (by omega)
    obtain rfl := List.mem_singleton.mp hmem
    rfl

section

variable {names : List String} {complete : Bool} {d : Document} {record : Record}

/-- A document of a record is an array or an object. -/
theorem nesting_pos_of_record? (h : d.record? names complete = some record) : 0 < d.nesting := by
  cases d with
  | arr | obj => exact Nat.lt_of_lt_of_le Nat.zero_lt_one (Nat.le_add_right _ _)
  | null | bool | num | str => simp [record?] at h

/-- **The fields of a record are nested less than the record**, which may be an object or an array. -/
theorem nesting_lt_of_record? (h : d.record? names complete = some record) {name : String}
    {field : Document} (hfield : record name = some field) : field.nesting < d.nesting := by
  cases d with
  | arr items =>
    rw [record?] at h
    split at h
    · obtain rfl := Option.some.inj h
      exact nesting_lt_of_mem_items (List.mem_of_getElem? hfield)
    · simp at h
  | obj members =>
    obtain ⟨-, rfl⟩ := eq_of_record?_obj h
    exact nesting_lt_of_mem_members (m := (some name, field)) (exists_mem_of_findMember hfield)
  | null | bool | num | str => simp [record?] at h

end

/-- What fits a budget is nested within it. -/
theorem nesting_le_of_fits {budget : Nat} {d : Document} (h : fits budget d = true) :
    d.nesting ≤ budget := by
  induction budget generalizing d with
  | zero => cases d <;> simp [fits, nesting] at h ⊢
  | succ budget ih =>
    cases d with
    | arr items =>
      rw [fits, itemsFit_eq_all, List.all_eq_true] at h
      have hitems := itemNesting_le_iff.mpr fun d hd => ih (h d hd)
      rw [nesting]
      omega
    | obj members =>
      rw [fits, membersFit_eq_all, List.all_eq_true] at h
      have hmembers := memberNesting_le_iff.mpr fun m hm => ih (Bool.and_eq_true_iff.mp (h m hm)).2
      rw [nesting]
      omega
    | null | bool | num | str => exact Nat.zero_le _

end Json.Document

/-! ## Filters -/

namespace Expr

/-- The children of a node that is read from a record are no deeper than a bound, if the filters are that
the fields of the record are decoded to.

**Proof sketch.** Every child was decoded from one of the four combinators of the record. A missing
one has no children, and for one that is there the bound is a hypothesis on the decoders. -/
private theorem depth_le_of_ofRecord? {budget bound : Nat} {one : Document → Option Expr}
    {listed : Document → Option (List Expr)} {record : Record} {e : Expr}
    (hone : ∀ name d, record name = some d → ∀ child ∈ one d, child.depth ≤ bound)
    (hlisted : ∀ name d, record name = some d → ∀ items ∈ listed d, ∀ child ∈ items,
      child.depth ≤ bound)
    (h : ofRecord? budget one listed record = some e) : e.depth ≤ 1 + bound := by
  obtain ⟨maps, -, h⟩ := Option.bind_eq_some_iff.mp h
  obtain ⟨not, hnot, h⟩ := Option.bind_eq_some_iff.mp h
  obtain ⟨nor, hnor, h⟩ := Option.bind_eq_some_iff.mp h
  obtain ⟨and, hand, h⟩ := Option.bind_eq_some_iff.mp h
  obtain ⟨or, hor, h⟩ := Option.bind_eq_some_iff.mp h
  obtain rfl := Option.some.inj h
  have hchild {name : String} {v : Option Expr} (hv : optional record name one = some v) :
      ∀ child ∈ v.toList, child.depth ≤ bound := by
    obtain ⟨rfl, -⟩ | ⟨d, x, hd, -, hx, rfl⟩ := optional_cases hv
    · simp
    · simpa using hone name d hd x hx
  have hitems {name : String} {v : Option (List Expr)} (hv : optional record name listed = some v) :
      ∀ child ∈ v.getD [], child.depth ≤ bound := by
    obtain ⟨rfl, -⟩ | ⟨d, items, hd, -, hdecoded, rfl⟩ := optional_cases hv
    · simp
    · exact hlisted name d hd items hdecoded
  rw [depth_eq]
  refine Nat.add_le_add_left (depthAll_le_iff.mpr fun child hmem => ?_) 1
  simp only [children, List.mem_append] at hmem
  rcases hmem with ((hmem | hmem) | hmem) | hmem
  · exact hchild hnot child hmem
  · exact hchild hnor child hmem
  · exact hitems hand child hmem
  · exact hitems hor child hmem

/-- Filters that are decoded from the items of an array come from one item each. -/
private theorem exists_item_of_mem_mapM {item : Document → Option Expr} {items : List Document}
    {es : List Expr} (h : items.mapM item = some es) : ∀ e ∈ es, ∃ d ∈ items, item d = some e := by
  induction items generalizing es with
  | nil =>
    obtain rfl := Option.some.inj h
    simp
  | cons d items ih =>
    rw [List.mapM_cons] at h
    obtain ⟨e, he, h⟩ := Option.bind_eq_some_iff.mp h
    obtain ⟨rest, hrest, h⟩ := Option.bind_eq_some_iff.mp h
    obtain rfl := Option.some.inj h
    refine List.forall_mem_cons.mpr ⟨⟨d, List.mem_cons_self, he⟩, fun e' he' => ?_⟩
    obtain ⟨d', hd', hitem⟩ := ih hrest e' he'
    exact ⟨d', List.mem_cons_of_mem _ hd', hitem⟩

/-- The filters of a list are less deep than its array is nested, if those of its items are no deeper than
these. -/
private theorem depth_lt_of_list {item : Decoder Expr} {budget : Nat} {d : Document} {es : List Expr}
    (hitem : ∀ budget' < budget, ∀ d e, item budget' d = some e → e.depth ≤ d.nesting)
    (h : list item budget d = some es) : ∀ e ∈ es, e.depth < d.nesting := by
  obtain _ | budget := budget
  · simp [list] at h
  · cases d with
    | arr items =>
      intro e he
      obtain ⟨d, hd, hdecoded⟩ := exists_item_of_mem_mapM h e he
      exact Nat.lt_of_le_of_lt (hitem budget (Nat.lt_succ_self budget) d e hdecoded)
        (nesting_lt_of_mem_items hd)
    | null | bool | num | str | obj => simp [list] at h

/-- The filter of a record is no deeper than the document is nested that the record comes from, if this
holds of the filters that its fields are decoded to. -/
private theorem depth_le_of_record? {budget : Nat} {names : List String} {d : Document} {record : Record}
    {e : Expr} (hdecode : ∀ budget' ≤ budget, ∀ d e, decode budget' d = some e → e.depth ≤ d.nesting)
    (hrecord : d.record? names false = some record)
    (h : ofRecord? budget (decode budget) (list decode budget) record = some e) :
    e.depth ≤ d.nesting := by
  have hpos := nesting_pos_of_record? hrecord
  have hfield {name : String} {field : Document} (hname : record name = some field) :
      field.nesting ≤ d.nesting - 1 :=
    Nat.le_sub_one_of_lt (nesting_lt_of_record? hrecord hname)
  have hle : e.depth ≤ 1 + (d.nesting - 1) := by
    refine depth_le_of_ofRecord? ?_ ?_ h
    · intro name field hname child hchild
      exact (hdecode budget (Nat.le_refl budget) field child hchild).trans (hfield hname)
    · intro name field hname items hitems child hchild
      have hlt := depth_lt_of_list (fun b hb => hdecode b (Nat.le_of_lt hb)) hitems child hchild
      exact (Nat.le_of_lt hlt).trans (hfield hname)
  omega

/-- **A filter is no deeper than its document is nested**, whether its nodes are written as objects or as
arrays. -/
theorem depth_le_nesting {budget : Nat} {d : Document} {e : Expr} (h : decode budget d = some e) :
    e.depth ≤ d.nesting := by
  induction budget using Nat.strongRecOn generalizing d e with
  | ind budget ih =>
    obtain _ | budget := budget
    · simp [decode] at h
    · rw [decode_succ] at h
      obtain ⟨record, hrecord, h⟩ := Option.bind_eq_some_iff.mp h
      exact depth_le_of_record? (fun b hb d e he => ih b (Nat.lt_succ_of_le hb) he) hrecord h

end Expr

/-! ## Hints -/

namespace Json.Decoder

/-- What is decoded by a decoder that refuses arrays and objects is a leaf. -/
theorem nesting_eq_zero_of_refuses {α : Type} {item : Document → Option α}
    (harr : ∀ items, item (.arr items) = none) (hobj : ∀ members, item (.obj members) = none)
    {d : Document} {x : α} (h : item d = some x) : d.nesting = 0 := by
  cases d with
  | arr items => simp [harr] at h
  | obj members => simp [hobj] at h
  | null | bool | num | str => rfl

/-- The members of a field map of integers are leaves. -/
private theorem nesting_eq_zero_of_insertMembers {budget : Nat} {read m : FieldMap Int}
    {members : List (Option String × Document)}
    (h : insertMembers (integer budget) read members = some m) :
    ∀ member ∈ members, member.2.nesting ≤ 0 := by
  induction members generalizing read with
  | nil => simp
  | cons member members ih =>
    rw [insertMembers] at h
    obtain ⟨name, -, h⟩ := Option.bind_eq_some_iff.mp h
    obtain ⟨v, hv, h⟩ := Option.bind_eq_some_iff.mp h
    have hleaf := nesting_eq_zero_of_refuses (fun _ => rfl) (fun _ => rfl) hv
    exact List.forall_mem_cons.mpr ⟨Nat.le_of_eq hleaf, ih h⟩

/-- A document that is decoded to a field map of integers is nested within the budget. -/
theorem nesting_le_of_fieldMap {budget : Nat} {d : Document} {m : FieldMap Int}
    (h : fieldMap integer budget d = some m) : d.nesting ≤ budget := by
  obtain _ | budget := budget
  · simp [fieldMap] at h
  · cases d with
    | obj members =>
      have hmembers := memberNesting_le_iff.mpr (nesting_eq_zero_of_insertMembers h)
      rw [nesting]
      omega
    | null | bool | num | str | arr => simp [fieldMap] at h

/-- The document of an optional field is nested within a bound if this holds of what is decoded. -/
theorem nesting_le_of_optional {α : Type} {record : Record} {name : String}
    {item : Document → Option α} {v : Option α} {n : Nat}
    (hitem : ∀ d x, item d = some x → d.nesting ≤ n) (h : optional record name item = some v) :
    ∀ d, record name = some d → d.nesting ≤ n := by
  intro d hd
  obtain ⟨-, hnone | hnull⟩ | ⟨d', x, hd', -, hx, -⟩ := optional_cases h
  · rw [hnone] at hd
    simp at hd
  · obtain rfl := Option.some.inj (hnull.symm.trans hd)
    exact Nat.zero_le n
  · obtain rfl := Option.some.inj (hd'.symm.trans hd)
    exact hitem d' x hx

end Json.Decoder

/-! ## Queries -/

namespace Query

/-- The query that a filter and hints make has this filter, and each of its hints is decoded from the field
of its name. -/
private theorem optional_of_withHints? {budget : Nat} {hints : Record} {filter : Expr} {q : Query}
    (h : withHints? budget hints filter = some q) :
    q.filter = filter ∧ optional hints "order" (fieldMap integer budget) = some q.order ∧
      optional hints "where" (string budget) = some q.rawCondition ∧
      optional hints "offset" (integer budget) = some q.offset ∧
      optional hints "limit" (integer budget) = some q.limit ∧
      optional hints "exists" (bool budget) = some q.existsOnly ∧
      optional hints "skip" (integer budget) = some q.skip ∧
      optional hints "take" (integer budget) = some q.take := by
  obtain ⟨order, horder, h⟩ := Option.bind_eq_some_iff.mp h
  obtain ⟨rawCondition, hrawCondition, h⟩ := Option.bind_eq_some_iff.mp h
  obtain ⟨offset, hoffset, h⟩ := Option.bind_eq_some_iff.mp h
  obtain ⟨limit, hlimit, h⟩ := Option.bind_eq_some_iff.mp h
  obtain ⟨existsOnly, hexistsOnly, h⟩ := Option.bind_eq_some_iff.mp h
  obtain ⟨skip, hskip, h⟩ := Option.bind_eq_some_iff.mp h
  obtain ⟨take, htake, h⟩ := Option.bind_eq_some_iff.mp h
  obtain rfl := Option.some.inj h
  exact ⟨rfl, horder, hrawCondition, hoffset, hlimit, hexistsOnly, hskip, htake⟩

/-- The hints of a query are nested within the budget. -/
theorem nesting_le_of_withHints? {budget : Nat} {hints : Record} {filter : Expr} {q : Query}
    (h : withHints? budget hints filter = some q) :
    ∀ name ∈ hintNames, ∀ d, hints name = some d → d.nesting ≤ budget := by
  have hleaf {α : Type} {item : Document → Option α} {name : String} {v : Option α}
      (harr : ∀ items, item (.arr items) = none) (hobj : ∀ members, item (.obj members) = none)
      (hv : optional hints name item = some v) : ∀ d, hints name = some d → d.nesting ≤ budget :=
    nesting_le_of_optional
      (fun _ _ hx => nesting_eq_zero_of_refuses harr hobj hx ▸ Nat.zero_le budget) hv
  obtain ⟨-, horder, hrawCondition, hoffset, hlimit, hexistsOnly, hskip, htake⟩ :=
    optional_of_withHints? h
  simp only [hintNames, List.forall_mem_cons, List.not_mem_nil, false_imp_iff, implies_true, and_true]
  exact ⟨nesting_le_of_optional (fun _ _ hm => nesting_le_of_fieldMap hm) horder,
    hleaf (fun _ => rfl) (fun _ => rfl) hrawCondition, hleaf (fun _ => rfl) (fun _ => rfl) hoffset,
    hleaf (fun _ => rfl) (fun _ => rfl) hlimit, hleaf (fun _ => rfl) (fun _ => rfl) hexistsOnly,
    hleaf (fun _ => rfl) (fun _ => rfl) hskip, hleaf (fun _ => rfl) (fun _ => rfl) htake⟩

/-- What a document is that is decoded to a query: an object with the record of its hints and with that of
its other members, which fit. -/
theorem exists_records_of_decode {budget : Nat} {d : Document} {q : Query}
    (h : decode budget d = some q) :
    ∃ b members hints record, budget = b + 1 ∧ d = .obj members ∧
      (Document.obj members).record? hintNames false = some hints ∧
      (Document.obj (others members)).record? Expr.memberNames false = some record ∧
      membersFit b (others members) = true ∧
      Expr.ofRecord? b (Expr.decode b) (list Expr.decode b) record = some q.filter ∧
      withHints? b hints q.filter = some q := by
  obtain _ | b := budget
  · simp [decode] at h
  · cases d with
    | obj members =>
      rw [decode_obj] at h
      obtain ⟨hints, hhints, h⟩ := Option.bind_eq_some_iff.mp h
      obtain ⟨record, hrecord, h⟩ := Option.bind_eq_some_iff.mp h
      split at h
      · rename_i hfit
        obtain ⟨filter, hfilter, hwith⟩ := Option.bind_eq_some_iff.mp h
        obtain rfl := (optional_of_withHints? hwith).1
        exact ⟨b, members, hints, record, rfl, rfl, hhints, hrecord, hfit, hfilter, hwith⟩
      · simp at h
    | null | bool | num | str | arr => simp [decode] at h

/-- **The filter of a query is no deeper than the document of the query is nested.** -/
theorem depth_le_nesting {budget : Nat} {d : Document} {q : Query} (h : decode budget d = some q) :
    q.filter.depth ≤ d.nesting := by
  obtain ⟨b, members, hints, record, -, rfl, -, hrecord, -, hfilter, -⟩ := exists_records_of_decode h
  have hothers : (Document.obj (others members)).nesting ≤ (Document.obj members).nesting := by
    have hmembers : memberNesting (others members) ≤ memberNesting members :=
      memberNesting_le_iff.mpr fun m hm =>
        memberNesting_le_iff.mp (Nat.le_refl _) m (List.mem_of_mem_filter hm)
    rw [nesting, nesting]
    exact Nat.add_le_add_left hmembers 1
  exact (Expr.depth_le_of_record? (fun _ _ _ _ => Expr.depth_le_nesting) hrecord hfilter).trans hothers

/-- **A document that is decoded to a query is nested within the budget**: each of its members is a hint,
which is decoded, or has to fit. -/
theorem nesting_le_of_decode {budget : Nat} {d : Document} {q : Query}
    (h : decode budget d = some q) : d.nesting ≤ budget := by
  obtain ⟨b, members, hints, record, rfl, rfl, hhints, -, hfit, -, hwith⟩ :=
    exists_records_of_decode h
  obtain ⟨hdistinct, rfl⟩ := eq_of_record?_obj hhints
  have hmembers : memberNesting members ≤ b := by
    refine memberNesting_le_iff.mpr fun m hm => ?_
    by_cases hhint : isHint m = true
    · obtain ⟨name, d⟩ := m
      obtain _ | name := name
      · simp [isHint] at hhint
      · have hname : name ∈ hintNames := by simpa [isHint] using hhint
        exact nesting_le_of_withHints? hwith name hname d (findMember_of_mem hdistinct hname hm)
    · rw [membersFit_eq_all, List.all_eq_true] at hfit
      have hother : m ∈ others members := List.mem_filter.mpr ⟨hm, by simpa using hhint⟩
      exact nesting_le_of_fits (Bool.and_eq_true_iff.mp (hfit m hother)).2
  rw [nesting]
  omega

/-- A text has a query within limits exactly if it is decoded to this query, and its size and the depth of
the filter are within the limits. -/
theorem parse_eq_ok_iff {limits : Limits} {text : String} {q : Query} :
    parse limits text = .ok q ↔ text.utf8ByteSize ≤ limits.maxBytes ∧
      decodeText decode text = some q ∧ q.filter.depth ≤ limits.maxDepth := by
  rw [parse]
  by_cases hsize : limits.maxBytes < text.utf8ByteSize
  · simp [hsize, Nat.not_le.mpr hsize]
  · rw [if_neg hsize]
    cases decodeText decode text with
    | none => simp
    | some q' =>
      by_cases hdeep : limits.maxDepth < q'.filter.depth
      · simp only [if_pos hdeep, reduceCtorEq, Option.some.injEq, false_iff, not_and]
        rintro - rfl
        exact Nat.not_le.mpr hdeep
      · simp only [if_neg hdeep, Except.ok.injEq, Option.some.injEq, Nat.not_lt.mp hsize, true_and]
        exact ⟨fun heq => ⟨heq, heq ▸ Nat.not_lt.mp hdeep⟩, And.left⟩

/-- **The filters of texts are no deeper than the brackets of the texts**, whatever limits are set. Let a
text be decoded to a query.

- The filter is no deeper than brackets and braces of the text are open at once, and these are at most 127.
- The depth is the length of the longest path, on which each node is a child of the one before.
- Within limits the query of the text is this query, if the size of the text and the depth of its filter are
  within the limits, and otherwise there is none.
- The depth, the fields and, wherever it stands, the fragment of the filter are found with no more than 127
  calls open at once.

**Proof sketch.** The brackets that are open at once are the nesting of the document. A node takes an object
or an array of its own, so the filter is no deeper than that; and each member of a query is either a hint,
of which only the order opens anything, or has to fit the bound of the reader. Calls are open along a path
of the filter only. -/
theorem depth_le_openBrackets {text : String} {q : Query} (h : decodeText decode text = some q) :
    q.filter.depth ≤ openBrackets text ∧ openBrackets text ≤ 127 ∧
      IsGreatest {n | ∃ below, Expr.IsPath (q.filter :: below) ∧ (q.filter :: below).length = n}
        q.filter.depth ∧
      (∀ limits q', parse limits text = .ok q' ↔
        text.utf8ByteSize ≤ limits.maxBytes ∧ q.filter.depth ≤ limits.maxDepth ∧ q' = q) ∧
      Expr.run Expr.depthStep 127 q.filter () = some q.filter.depth ∧
      Expr.run Expr.fieldsStep 127 q.filter () = some q.filter.fields ∧
      ∀ c before, Expr.run Expr.compileStep 127 q.filter (c, before) =
        some (q.filter.compile c before, before + q.filter.nodes) := by
  obtain ⟨d, hread, hdecode⟩ := Option.bind_eq_some_iff.mp h
  have hopen : openBrackets text = d.nesting := openBrackets_eq_nesting hread
  have hdepth : q.filter.depth ≤ openBrackets text := hopen ▸ depth_le_nesting hdecode
  have hbound : openBrackets text ≤ 127 := hopen ▸ nesting_le_of_decode hdecode
  have hlevels : q.filter.depth ≤ 127 := hdepth.trans hbound
  refine ⟨hdepth, hbound, q.filter.isGreatest_depth, fun limits q' => ?_, ?_, ?_, fun c before => ?_⟩
  · rw [parse_eq_ok_iff, h, Option.some.injEq]
    constructor
    · rintro ⟨hsize, rfl, hdeep⟩
      exact ⟨hsize, hdeep, rfl⟩
    · rintro ⟨hsize, hdeep, rfl⟩
      exact ⟨hsize, rfl, hdeep⟩
  · rw [Expr.depthStep_callsChildren.run_eq, if_pos hlevels]
  · rw [Expr.fieldsStep_callsChildren.run_eq, if_pos hlevels]
  · rw [Expr.compileStep_callsChildren.run_eq, if_pos hlevels]

/-- A query text with nodes of both forms, and with brackets in its strings. -/
def mixedText : String :=
  "\x7b\"order\": \x7b\"[\": -1\x7d, \"not\": [\x7b\"b]\": \"[[[\\\"\"\x7d]," ++
    "\"or\":[[null,null,null,null,null,null,null,null,null,null,null,null,null," ++
    "[\x7b\"a\":1\x7d]],\x7b\x7d]\x7d"

/-- The text with nodes of both forms: three nodes in a row, and at most five brackets open at once. -/
theorem depth_le_openBrackets_mixedText :
    ∃ q, decodeText decode mixedText = some q ∧ q.filter.depth = 3 ∧ openBrackets mixedText = 5 ∧
      q.filter.depth ≤ openBrackets mixedText ∧ parse ⟨1000, 3⟩ mixedText = .ok q ∧
      (¬ ∃ q', parse ⟨1000, 2⟩ mixedText = .ok q') ∧
      Expr.run Expr.fieldsStep 127 q.filter () = some ["b]", "a"] := by
  have hread : (decodeText decode mixedText).map (fun q => (q.filter.depth, q.filter.fields)) =
      some (3, ["b]", "a"]) := by decide +kernel
  obtain ⟨q, hq, hvalues⟩ := Option.map_eq_some_iff.mp hread
  obtain ⟨hdepth, hfields⟩ := Prod.mk.inj hvalues
  obtain ⟨hle, -, -, hparse, -, hrun, -⟩ := depth_le_openBrackets hq
  refine ⟨q, hq, hdepth, by decide +kernel, hle, (hparse _ _).mpr ⟨by decide +kernel, ?_, rfl⟩,
    ?_, hrun.trans (congrArg some hfields)⟩
  · exact Nat.le_of_eq hdepth
  · rintro ⟨q', hq'⟩
    obtain ⟨-, hdeep, -⟩ := (hparse _ _).mp hq'
    rw [hdepth] at hdeep
    exact absurd hdeep (by decide)

end Query

end SqlFilter
