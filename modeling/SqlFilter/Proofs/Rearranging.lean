import SqlFilter.Proofs.Json.Texts
import SqlFilter.Proofs.Records

set_option relaxedAutoImplicit false
set_option autoImplicit false

/-!
# Rearranged queries

The members of a query and of the nodes of its filter can stand in any order, and members of unknown
names can be added anywhere among them. None of this is seen in the query that is decoded. What order
is left is that of maps and lists.

## Design

Which names are unknown depends on the level: hints are known to a query and unknown to a node. So
`Rearranged` carries the known names, and also the budget at which a document stands: what is added has
to fit, since all of a query but its hints is checked. A node can be written as an array, where nothing
can be rearranged; but it may have children that are objects.

## Main definitions

* `Replaces` — the document of a field is replaced in an object or an array.
* `Rearranged` — documents with rearranged and added members, at any depth.
* `Expr.Alike` — records that describe the same node.
* `SameDecoding` — documents that no decoder tells apart.

## Main results

* `Rearranged.same` — rearranged documents decode alike, as expressions and as queries.
* `Query.parse_rearranged` — rearranged texts have the same query, or the same error.
-/

namespace SqlFilter

open Json Json.Document Json.Decoder

/-! ## Rearranged documents -/

/-- The document of a field of a node is replaced: the one of a member of its name, or the item of an
array at its place. -/
inductive Replaces (name : String) (d d' : Document) : Document → Document → Prop
  | member (members : List (Option String × Document)) :
      Replaces name d d' (.obj ((some name, d) :: members)) (.obj ((some name, d') :: members))
  | item {before : List Document} (after : List Document)
      (h : before.length = Expr.memberNames.idxOf name) :
      Replaces name d d' (.arr (before ++ d :: after)) (.arr (before ++ d' :: after))

/-- **Rearranged documents**, where some names are known and `budget` more arrays and objects may be
opened. Members stand in another order, or one of an unknown name and with a value that fits is added;
or the child of `not` or `nor`, or an item of `and` or `or`, is rearranged as a node. -/
inductive Rearranged : List String → Nat → Document → Document → Prop
  | permuted {known : List String} {budget : Nat} {members members' : List (Option String × Document)}
      (h : members.Perm members') : Rearranged known budget (.obj members) (.obj members')
  | added {known : List String} {budget : Nat} {name : String} {d : Document}
      (members : List (Option String × Document)) (hname : name ∉ known)
      (hfits : d.fits budget = true) :
      Rearranged known (budget + 1) (.obj members) (.obj ((some name, d) :: members))
  | child {known : List String} {budget : Nat} {name : String} {d d' e e' : Document}
      (hname : name ∈ ["not", "nor"]) (hplace : Replaces name d d' e e')
      (h : Rearranged Expr.memberNames budget d d') : Rearranged known (budget + 1) e e'
  | item {known : List String} {budget : Nat} {name : String} {before after : List Document}
      {d d' e e' : Document} (hname : name ∈ ["and", "or"])
      (hplace : Replaces name (.arr (before ++ d :: after)) (.arr (before ++ d' :: after)) e e')
      (h : Rearranged Expr.memberNames budget d d') : Rearranged known (budget + 2) e e'
  | symm {known : List String} {budget : Nat} {d d' : Document} (h : Rearranged known budget d d') :
      Rearranged known budget d' d
  | trans {known : List String} {budget : Nat} {d d' d'' : Document}
      (h : Rearranged known budget d d') (h' : Rearranged known budget d' d'') :
      Rearranged known budget d d''

/-! ## Records that describe the same node -/

namespace Expr

/-- Two records describe the same node: they have the same documents for the operators, and documents
with the same expressions for the combinators. -/
structure Alike (budget : Nat) (record record' : Record) : Prop where
  operators : ∀ o : Operator, record o.name = record' o.name
  child : ∀ n ∈ ["not", "nor"],
    optional record n (decode budget) = optional record' n (decode budget)
  children : ∀ n ∈ ["and", "or"],
    optional record n (list decode budget) = optional record' n (list decode budget)

/-- Records that agree on the names of members describe the same node. -/
theorem Alike.of_agree {budget : Nat} {record record' : Record}
    (h : ∀ n ∈ memberNames, record n = record' n) : Alike budget record record' := by
  refine ⟨fun o => h _ (name_mem_memberNames o), fun n hn => ?_, fun n hn => ?_⟩
  · refine optional_congr (h n ?_) _
    rcases List.mem_pair.mp hn with rfl | rfl <;> decide
  · refine optional_congr (h n ?_) _
    rcases List.mem_pair.mp hn with rfl | rfl <;> decide

/-- Alike records give the same node. -/
theorem Alike.ofRecord?_eq {budget : Nat} {record record' : Record} (h : Alike budget record record') :
    ofRecord? budget (decode budget) (list decode budget) record =
      ofRecord? budget (decode budget) (list decode budget) record' := by
  have hmaps : OperatorMaps.decode budget record = OperatorMaps.decode budget record' := by
    rw [OperatorMaps.decode, OperatorMaps.decode]
    exact congrArg Operator.tabulate? (funext fun o => optional_congr (h.operators o) _)
  rw [ofRecord?, ofRecord?, hmaps, h.child "not" (by simp), h.child "nor" (by simp),
    h.children "and" (by simp), h.children "or" (by simp)]

/-- Documents with alike records are the same expression. -/
theorem decode_eq_of_alike {budget : Nat} {d d' : Document}
    (h : Option.Rel (Alike budget) (d.record? memberNames false) (d'.record? memberNames false)) :
    decode (budget + 1) d = decode (budget + 1) d' := by
  rw [decode_succ, decode_succ]
  generalize d.record? memberNames false = record, d'.record? memberNames false = record' at h ⊢
  cases h with
  | none => rfl
  | some h => exact h.ofRecord?_eq

end Expr

/-! ## Replaced documents -/

/-- What holds other nodes is named like no operator and like no hint. -/
theorem Expr.combinators_disjoint {name : String} (h : name ∈ ["not", "nor", "and", "or"]) :
    (∀ o : Operator, o.name ≠ name) ∧ name ∉ Query.hintNames := by
  have hall : ∀ name ∈ ["not", "nor", "and", "or"],
      (∀ o ∈ Operator.declared, o.name ≠ name) ∧ name ∉ Query.hintNames := by
    decide
  exact ⟨fun o => (hall name h).1 o o.mem_declared, (hall name h).2⟩

namespace Replaces

variable {name : String} {d d' e e' : Document}

/-- A document that fits can be replaced by another one that does. -/
theorem fits_eq {budget : Nat} (h : Replaces name d d' e e') (hfits : d.fits budget = d'.fits budget) :
    e.fits (budget + 1) = e'.fits (budget + 1) := by
  cases h with
  | member members => rw [fits, fits, membersFit, membersFit, hfits]
  | item after h =>
    rw [fits, fits, itemsFit_eq_all, itemsFit_eq_all]
    simp only [List.all_append, List.all_cons, hfits]

/-- The record of a node has the replaced document at its name and is the same elsewhere.

**Proof sketch.** As an object, replacing the first member keeps all names, so both records exist or
none does, and they differ at the one name only. As an array, the position of the item is that of
its name, and every other name has another position. -/
theorem record (h : Replaces name d d' e e') :
    Option.Rel (fun record record' => record name = some d ∧ record' name = some d' ∧
        ∀ n ∈ Expr.memberNames, n ≠ name → record n = record' n)
      (e.record? Expr.memberNames false) (e'.record? Expr.memberNames false) := by
  cases h with
  | member members =>
    have hdistinct : distinctMembers Expr.memberNames ((some name, d) :: members) =
        distinctMembers Expr.memberNames ((some name, d') :: members) := by
      simp [distinctMembers]
    simp only [record?, ← hdistinct]
    split
    · refine .some ⟨?_, ?_, fun n _ hne => ?_⟩
      · simp [findMember_cons]
      · simp [findMember_cons]
      · simp [findMember_cons, hne.symm]
    · exact .none
  | @item before after h =>
    simp only [record?, List.length_append, List.length_cons]
    split
    · refine .some ⟨?_, ?_, fun n hn hne => ?_⟩
      · simp [← h]
      · simp [← h]
      · have hidx : before.length ≠ Expr.memberNames.idxOf n := by
          rw [h]
          exact fun heq => hne ((List.idxOf_inj hn).mp heq.symm)
        have hset : before ++ d' :: after = (before ++ d :: after).set before.length d' := by simp
        simp only [hset, List.getElem?_set_ne hidx]
    · exact .none

/-- **A node with a replaced document** is the same if the replaced document says the same. -/
theorem alike {budget : Nat} (h : Replaces name d d' e e') (hname : name ∈ ["not", "nor", "and", "or"])
    (hchild : name ∈ ["not", "nor"] →
      optional (fun _ => some d) name (Expr.decode budget) =
        optional (fun _ => some d') name (Expr.decode budget))
    (hchildren : name ∈ ["and", "or"] →
      optional (fun _ => some d) name (list Expr.decode budget) =
        optional (fun _ => some d') name (list Expr.decode budget)) :
    Option.Rel (Expr.Alike budget) (e.record? Expr.memberNames false)
      (e'.record? Expr.memberNames false) := by
  refine rel_mono h.record fun record record' ⟨hd, hd', hother⟩ => ?_
  have hoptional {α : Type} {n : String} (item : Document → Option α) (hn : n ∈ Expr.memberNames)
      (hsame : n = name → optional (fun _ => some d) name item = optional (fun _ => some d') name item) :
      optional record n item = optional record' n item := by
    by_cases hne : n = name
    · subst hne
      calc optional record n item = optional (fun _ => some d) n item := optional_congr hd item
        _ = optional (fun _ => some d') n item := hsame rfl
        _ = optional record' n item := (optional_congr hd' item).symm
    · exact optional_congr (hother n hn hne) item
  refine ⟨fun o => ?_, fun n hn => hoptional _ ?_ ?_, fun n hn => hoptional _ ?_ ?_⟩
  · exact hother _ (Expr.name_mem_memberNames o) ((Expr.combinators_disjoint hname).1 o)
  · rcases List.mem_pair.mp hn with rfl | rfl <;> decide
  · rintro rfl
    exact hchild hn
  · rcases List.mem_pair.mp hn with rfl | rfl <;> decide
  · rintro rfl
    exact hchildren hn

end Replaces

/-! ## Queries -/

namespace Query

/-- **A query depends on its hints, on whether all other members fit, and on the node that these
describe.** -/
theorem decode_obj_congr {budget : Nat} {members members' : List (Option String × Document)}
    (hhints : AgreeOn hintNames ((Document.obj members).record? hintNames false)
      ((Document.obj members').record? hintNames false))
    (hfits : membersFit budget (others members) = membersFit budget (others members'))
    (hnode : Option.Rel (Expr.Alike budget)
      ((Document.obj (others members)).record? Expr.memberNames false)
      ((Document.obj (others members')).record? Expr.memberNames false)) :
    decode (budget + 1) (.obj members) = decode (budget + 1) (.obj members') := by
  rw [decode_obj, decode_obj, ← hfits]
  generalize (Document.obj members).record? hintNames false = hints,
    (Document.obj members').record? hintNames false = hints' at hhints ⊢
  generalize (Document.obj (others members)).record? Expr.memberNames false = node,
    (Document.obj (others members')).record? Expr.memberNames false = node' at hnode ⊢
  cases hhints with
  | none => rfl
  | some hhints =>
    cases hnode with
    | none => rfl
    | some hnode =>
      simp only [Option.bind_some, hnode.ofRecord?_eq, withHints?_congr hhints]

end Query

/-! ## Rearranged documents decode alike -/

/-- Two documents that no decoder tells apart at a level where some names are known: nodes where the
members of nodes are, and queries where the hints are known too. -/
structure SameDecoding (known : List String) (budget : Nat) (d d' : Document) : Prop where
  null : d = .null ↔ d' = .null
  fits : d.fits budget = d'.fits budget
  expr : Expr.memberNames ⊆ known → Expr.decode budget d = Expr.decode budget d'
  query : Expr.memberNames ++ Query.hintNames ⊆ known → Query.decode budget d = Query.decode budget d'

namespace SameDecoding

variable {known : List String} {budget : Nat}

/-- Not being told apart is symmetric. -/
theorem symm {d d' : Document} (h : SameDecoding known budget d d') : SameDecoding known budget d' d :=
  ⟨h.null.symm, h.fits.symm, fun hknown => (h.expr hknown).symm, fun hknown => (h.query hknown).symm⟩

/-- Not being told apart is transitive. -/
theorem trans {d d' d'' : Document} (h : SameDecoding known budget d d')
    (h' : SameDecoding known budget d' d'') : SameDecoding known budget d d'' :=
  ⟨h.null.trans h'.null, h.fits.trans h'.fits, fun hknown => (h.expr hknown).trans (h'.expr hknown),
    fun hknown => (h.query hknown).trans (h'.query hknown)⟩

/-- **The order of members** is not seen. -/
theorem of_perm {members members' : List (Option String × Document)} (h : members.Perm members') :
    SameDecoding known budget (.obj members) (.obj members') := by
  cases budget with
  | zero => exact ⟨by simp, rfl, fun _ => rfl, fun _ => rfl⟩
  | succ budget =>
    have hnode {a b : List (Option String × Document)} (h : a.Perm b) :
        Option.Rel (Expr.Alike budget) ((Document.obj a).record? Expr.memberNames false)
          ((Document.obj b).record? Expr.memberNames false) :=
      rel_mono (agreeOn_of_perm Expr.memberNames false h) fun _ _ => Expr.Alike.of_agree
    have hothers : (Query.others members).Perm (Query.others members') := h.filter _
    exact ⟨by simp, membersFit_perm budget h, fun _ => Expr.decode_eq_of_alike (hnode h), fun _ =>
      Query.decode_obj_congr (agreeOn_of_perm _ _ h) (membersFit_perm budget hothers) (hnode hothers)⟩

/-- **A member of an unknown name** is not seen, if its value fits. -/
theorem of_unknown {name : String} {d : Document} (members : List (Option String × Document))
    (hname : name ∉ known) (hfits : d.fits budget = true) :
    SameDecoding known (budget + 1) (.obj members) (.obj ((some name, d) :: members)) := by
  have hmembersFit (members : List (Option String × Document)) :
      membersFit budget members = membersFit budget ((some name, d) :: members) := by
    simp [membersFit, hfits]
  have hnode (hknown : Expr.memberNames ⊆ known) (members : List (Option String × Document)) :
      Option.Rel (Expr.Alike budget) ((Document.obj members).record? Expr.memberNames false)
        ((Document.obj ((some name, d) :: members)).record? Expr.memberNames false) :=
    rel_mono (agreeOn_cons Expr.memberNames false (fun h => hname (hknown h)) d)
      fun _ _ => Expr.Alike.of_agree
  refine ⟨by simp, hmembersFit members, fun hknown => Expr.decode_eq_of_alike (hnode hknown members),
    fun hknown => ?_⟩
  have hhint : name ∉ Query.hintNames := fun h => hname (hknown (List.mem_append_right _ h))
  refine Query.decode_obj_congr (agreeOn_cons _ _ hhint d) ?_ ?_
  · rw [Query.others_cons hhint]
    exact hmembersFit _
  · rw [Query.others_cons hhint]
    exact hnode (fun n hn => hknown (List.mem_append_left _ hn)) _

/-- **A replaced document** is not seen, if it fits like the other one and says the same. -/
theorem of_replaces {name : String} {d d' e e' : Document} (h : Replaces name d d' e e')
    (hname : name ∈ ["not", "nor", "and", "or"]) (hfits : d.fits budget = d'.fits budget)
    (hchild : name ∈ ["not", "nor"] →
      optional (fun _ => some d) name (Expr.decode budget) =
        optional (fun _ => some d') name (Expr.decode budget))
    (hchildren : name ∈ ["and", "or"] →
      optional (fun _ => some d) name (list Expr.decode budget) =
        optional (fun _ => some d') name (list Expr.decode budget)) :
    SameDecoding known (budget + 1) e e' := by
  have hnode {e e' : Document} (h : Replaces name d d' e e') := h.alike hname hchild hchildren
  have hhint := (Expr.combinators_disjoint hname).2
  have hnull : e = .null ↔ e' = .null := by cases h <;> simp
  refine ⟨hnull, h.fits_eq hfits, fun _ => Expr.decode_eq_of_alike (hnode h), fun _ => ?_⟩
  cases h with
  | item after h => rfl
  | member members =>
    have hothers : Replaces name d d' (.obj (Query.others ((some name, d) :: members)))
        (.obj (Query.others ((some name, d') :: members))) := by
      rw [Query.others_cons hhint, Query.others_cons hhint]
      exact .member _
    exact Query.decode_obj_congr ((agreeOn_cons _ _ hhint d).symm.trans (agreeOn_cons _ _ hhint d'))
      (hothers.fits_eq hfits) (hnode hothers)

end SameDecoding

/-- **Rearranged documents are not told apart.**

**Proof sketch.** Induction on the rearrangement. What is replaced by a rearranged child or by a list
with a rearranged item is decoded to the same by the induction hypothesis, as neither is `null`. -/
theorem Rearranged.same {known : List String} {budget : Nat} {d d' : Document}
    (h : Rearranged known budget d d') : SameDecoding known budget d d' := by
  induction h with
  | permuted h => exact .of_perm h
  | added members hname hfits => exact .of_unknown members hname hfits
  | @child known budget name d d' e e' hname hplace h ih =>
    refine .of_replaces hplace (List.mem_append_left ["and", "or"] hname) ih.fits (fun _ => ?_)
      fun hlist => ?_
    · by_cases hd : d = .null
      · rw [hd, ih.null.mp hd]
      · have hd' : d' ≠ .null := fun h => hd (ih.null.mpr h)
        rw [optional_of_some rfl hd, optional_of_some rfl hd', ih.expr (List.Subset.refl _)]
    · rcases List.mem_pair.mp hname with rfl | rfl <;> simp at hlist
  | @item known budget name before after d d' e e' hname hplace h ih =>
    have hfits : (Document.arr (before ++ d :: after)).fits (budget + 1) =
        (Document.arr (before ++ d' :: after)).fits (budget + 1) := by
      simp [fits, itemsFit_eq_all, ih.fits]
    have hlist : list Expr.decode (budget + 1) (.arr (before ++ d :: after)) =
        list Expr.decode (budget + 1) (.arr (before ++ d' :: after)) := by
      simp [list, ih.expr (List.Subset.refl _)]
    refine .of_replaces hplace (List.mem_append_right ["not", "nor"] hname) hfits (fun hchild => ?_)
      fun _ => ?_
    · rcases List.mem_pair.mp hname with rfl | rfl <;> simp at hchild
    · rw [optional_of_some rfl (by simp), optional_of_some rfl (by simp), hlist]
  | symm h ih => exact ih.symm
  | trans h h' ih ih' => exact ih.trans ih'

/-! ## Rearranged texts -/

/-- **Rearranged texts have the same query.** Take two texts of JSON within the limit of size, where one
is the other one rearranged: members of the query and of the nodes in its filter, at any depth, stand in
another order; and members that are unknown where they stand and have values that fit are added or left
out, also repeatedly. Then both give the same query, with the same filter and so with the same depth,
fields and statements; or both are refused with the same error.

**Proof sketch.** A decoder looks members up by their names, and refuses known names that are repeated.
So neither the order of members nor members of other names matter, to the root and by induction to
every node. -/
theorem Query.parse_rearranged {limits : Limits} {text text' : String} {d d' : Document}
    (hread : Document.read text = some d) (hread' : Document.read text' = some d')
    (h : Rearranged (Expr.memberNames ++ Query.hintNames) maxNesting d d')
    (hsize : text.utf8ByteSize ≤ limits.maxBytes) (hsize' : text'.utf8ByteSize ≤ limits.maxBytes) :
    parse limits text = parse limits text' := by
  have hdecode : decodeText decode text = decodeText decode text' := by
    rw [decodeText, decodeText, hread, hread', Option.bind_some, Option.bind_some,
      h.same.query (List.Subset.refl _)]
  rw [parse, parse, if_neg (Nat.not_lt.mpr hsize), if_neg (Nat.not_lt.mpr hsize'), hdecode]

/-- The text of a query with a node below `not` and one in `or`. -/
def Query.tidyText : String :=
  "\x7b\"limit\":3,\"not\":\x7b\"nil\":\x7b\"c\":true\x7d\x7d," ++
    "\"or\":[\x7b\"eq\":\x7b\"b\":1,\"a\":2\x7d,\"and\":[]\x7d]\x7d"

/-- The same query: the members of the root and of the node in `or` are rearranged, one is added to the
root, and one to the node below `not`, with a name that is known to queries only. -/
def Query.untidyText : String :=
  "\x7b\"?\":null,\"or\":[\x7b\"and\":[],\"eq\":\x7b\"b\":1,\"a\":2\x7d\x7d]," ++
    "\"limit\":3,\"not\":\x7b\"order\":[7],\"nil\":\x7b\"c\":true\x7d\x7d\x7d"

/-- The value that the tidy text is printed from. -/
private def Query.tidyValue : Json :=
  .obj [("limit", .num (.int 3)), ("not", .obj [("nil", .obj [("c", .bool true)])]),
    ("or", .arr [.obj
      [("eq", .obj [("b", .num (.int 1)), ("a", .num (.int 2))]), ("and", .arr [])]])]

/-- The value that the untidy text is printed from. -/
private def Query.untidyValue : Json :=
  .obj [("?", .null),
    ("or", .arr [.obj
      [("and", .arr []), ("eq", .obj [("b", .num (.int 1)), ("a", .num (.int 2))])]]),
    ("limit", .num (.int 3)),
    ("not", .obj [("order", .arr [.num (.int 7)]), ("nil", .obj [("c", .bool true)])])]

/-- An untidy text has the query of the tidy one.

**Proof sketch.** Both texts are printed values, so they are read to the documents of these. From
the first one the second is reached by four kinds of steps: a member is added to the child of `not`,
the members of the first `or` item are swapped, the members of the query are rotated to bring these
two to the front, and an unknown member is added. To such documents `parse_rearranged` applies. -/
theorem Query.parse_rearranged_untidyText :
    parse .default tidyText = parse .default untidyText ∧
      (parse .default untidyText).map fields = .ok ["c", "b", "a"] := by
  have hread : Document.read tidyText = some (.ofJson tidyValue) := by
    have hwords : tidyValue.HasWords := by
      simp [HasWords, tidyValue, numbers, itemNumbers, memberNumbers, IsWord]
    rw [show tidyText = tidyValue.compact by decide +kernel, Document.read_compact hwords]
  have hread' : Document.read untidyText = some (.ofJson untidyValue) := by
    have hwords : untidyValue.HasWords := by
      simp [HasWords, untidyValue, numbers, itemNumbers, memberNumbers, IsWord]
    rw [show untidyText = untidyValue.compact by decide +kernel, Document.read_compact hwords]
  have hnot (m : Option String × Document) (rest : List (Option String × Document)) :
      Rearranged (Expr.memberNames ++ hintNames) maxNesting (.obj ((some "not", .obj [m]) :: rest))
        (.obj ((some "not", .obj [(some "order", .arr [.num (some (.int 7))]), m]) :: rest)) :=
    .child (by decide) (.member rest) (.added [m] (by decide) (by decide))
  have hor (m n : Option String × Document) (rest : List (Option String × Document)) :
      Rearranged (Expr.memberNames ++ hintNames) maxNesting
        (.obj ((some "or", .arr [.obj [m, n]]) :: rest))
        (.obj ((some "or", .arr [.obj [n, m]]) :: rest)) :=
    @Rearranged.item _ _ "or" [] [] _ _ _ _ (by decide) (.member rest) (.permuted (.swap n m []))
  have hunknown (members : List (Option String × Document)) :
      Rearranged (Expr.memberNames ++ hintNames) maxNesting (.obj members)
        (.obj ((some "?", .null) :: members)) :=
    .added members (by decide) (by decide)
  have hrotate (m : Option String × Document) (rest : List (Option String × Document)) :
      Rearranged (Expr.memberNames ++ hintNames) maxNesting (.obj (m :: rest)) (.obj (rest ++ [m])) :=
    .permuted (List.perm_append_singleton m rest).symm
  exact ⟨parse_rearranged hread hread'
    ((hrotate _ _).trans <| (hnot _ _).trans <| (hrotate _ _).trans <| (hor _ _ _).trans <| hunknown _)
    (by decide) (by decide), by decide +kernel⟩

end SqlFilter
