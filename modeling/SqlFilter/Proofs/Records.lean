import Mathlib.Data.List.Perm.Basic
import SqlFilter.Query

set_option relaxedAutoImplicit false
set_option autoImplicit false

/-!
# What records depend on

The fields of a record are looked up by name among the members of an object. So a record depends on
which members of these names there are, but not on where they stand and not on other members.

## Main definitions

* `Json.Document.AgreeOn` — two records that are alike on given names, or two refusals.

## Main results

* `Json.Document.membersFit_eq_all`, `Json.Document.itemsFit_eq_all` — arrays and objects fit if all that
  is in them does.
* `Json.Document.agreeOn_of_perm`, `Json.Document.agreeOn_cons` — the order of members does not matter,
  and neither do members of other names.
* `Json.Decoder.optional_congr` — an optional field depends on its own document only.
-/

namespace SqlFilter.Json

namespace Document

/-! ## What fits -/

/-- Items fit if each of them does. -/
theorem itemsFit_eq_all (budget : Nat) (items : List Document) :
    itemsFit budget items = items.all (fits budget) := by
  induction items with
  | nil => rfl
  | cons d items ih => rw [itemsFit, ih, List.all_cons]

/-- Members fit if each of them has a proper name and a document that fits. -/
theorem membersFit_eq_all (budget : Nat) (members : List (Option String × Document)) :
    membersFit budget members = members.all fun m => m.1.isSome && fits budget m.2 := by
  induction members with
  | nil => rfl
  | cons m members ih => rw [membersFit, ih, List.all_cons]

/-- Rearranged members fit together. -/
theorem membersFit_perm {members members' : List (Option String × Document)} (budget : Nat)
    (h : members.Perm members') : membersFit budget members = membersFit budget members' := by
  rw [membersFit_eq_all, membersFit_eq_all, h.all_eq]

/-! ## Looking up members -/

section

variable {members members' : List (Option String × Document)}

@[simp] theorem countMembers_cons (n name : String) (d : Document) :
    countMembers n ((some name, d) :: members) =
      countMembers n members + if name = n then 1 else 0 := by
  simp [countMembers, List.countP_cons]

/-- The first member of a name is the first of a list or one of those after it. -/
theorem findMember_cons (n name : String) (d : Document) :
    findMember n ((some name, d) :: members) =
      if name = n then some d else findMember n members := by
  by_cases h : name = n <;> simp [findMember, h]

/-- Where no two members have a name, their order does not matter when it is looked up. -/
theorem findMember_perm {n : String} (h : members.Perm members') (hcount : countMembers n members ≤ 1) :
    findMember n members = findMember n members' := by
  have hfilter := h.filter fun m => m.1 = some n
  rw [countMembers, List.countP_eq_length_filter] at hcount
  rw [findMember, findMember, ← List.head?_filter, ← List.head?_filter]
  generalize members.filter (fun m => m.1 = some n) = found at hfilter hcount ⊢
  match found, hcount with
  | [], _ => rw [hfilter.nil_eq]
  | [m], _ => rw [List.singleton_perm.mp hfilter]

end

/-- The record of an object looks up its members, which have distinct names. -/
theorem eq_of_record?_obj {names : List String} {complete : Bool}
    {members : List (Option String × Document)} {record : Record}
    (h : (obj members).record? names complete = some record) :
    distinctMembers names members = true ∧ record = fun n => findMember n members := by
  rw [record?] at h
  split at h
  · rename_i hdistinct
    exact ⟨hdistinct, (Option.some.inj h).symm⟩
  · simp at h

/-! ## Records that are alike -/

/-- What is related by some relation is also related by a weaker one. -/
theorem rel_mono {α : Type} {R S : α → α → Prop} {x y : Option α} (h : Option.Rel R x y)
    (hRS : ∀ a b, R a b → S a b) : Option.Rel S x y := by
  cases h with
  | none => exact .none
  | some h => exact .some (hRS _ _ h)

/-- Either there is a record on neither side, or there are two of them, which are alike on names. -/
def AgreeOn (names : List String) : Option Record → Option Record → Prop :=
  Option.Rel fun record record' => ∀ n ∈ names, record n = record' n

/-- Agreement is symmetric. -/
theorem AgreeOn.symm {names : List String} {x y : Option Record} (h : AgreeOn names x y) :
    AgreeOn names y x := by
  cases h with
  | none => exact .none
  | some h => exact .some fun n hn => (h n hn).symm

/-- Agreement is transitive. -/
theorem AgreeOn.trans {names : List String} {x y z : Option Record} (h : AgreeOn names x y)
    (h' : AgreeOn names y z) : AgreeOn names x z := by
  cases h with
  | none => exact h'
  | some h =>
    cases h' with
    | some h' => exact .some fun n hn => (h n hn).trans (h' n hn)

section

variable {members members' : List (Option String × Document)} (names : List String) (complete : Bool)

/-- **The order of members** does not matter to a record. -/
theorem agreeOn_of_perm (h : members.Perm members') :
    AgreeOn names ((obj members).record? names complete) ((obj members').record? names complete) := by
  have hcount (n : String) : countMembers n members = countMembers n members' := h.countP_eq _
  have hdistinct : distinctMembers names members = distinctMembers names members' := by
    simp only [distinctMembers, hcount]
    rw [h.all_eq]
  simp only [record?, ← hdistinct]
  split
  · rename_i hmembers
    refine .some fun n hn => findMember_perm h ?_
    simp only [distinctMembers, Bool.and_eq_true, List.all_eq_true, decide_eq_true_eq] at hmembers
    exact hmembers.2 n hn
  · exact .none

/-- **Members of other names** do not matter to a record. -/
theorem agreeOn_cons {name : String} (hname : name ∉ names) (d : Document) :
    AgreeOn names ((obj members).record? names complete)
      ((obj ((some name, d) :: members)).record? names complete) := by
  have hne {n : String} (hn : n ∈ names) : name ≠ n := fun h => hname (h ▸ hn)
  have hdistinct : distinctMembers names ((some name, d) :: members) = distinctMembers names members := by
    rw [distinctMembers, distinctMembers, List.all_cons, Option.isSome_some, Bool.true_and]
    refine congrArg _ (Bool.eq_iff_iff.mpr ?_)
    simp only [List.all_eq_true]
    exact forall₂_congr fun n hn => by simp [hne hn]
  simp only [record?, hdistinct]
  split
  · exact .some fun n hn => by rw [findMember_cons, if_neg (hne hn)]
  · exact .none

end

end Document

/-! ## Fields that may be missing -/

namespace Decoder

variable {α : Type} {record record' : Document.Record} {name : String}

/-- An optional field depends on its own document only. -/
theorem optional_congr (h : record name = record' name) (item : Document → Option α) :
    optional record name item = optional record' name item := by
  rw [optional, optional, h]

/-- An optional field that is given and not `null` is decoded. -/
theorem optional_of_some {d : Document} (h : record name = some d) (hd : d ≠ .null)
    (item : Document → Option α) : optional record name item = (item d).map some := by
  rw [optional, h]
  cases d with
  | null => exact absurd rfl hd
  | bool | num | str | arr | obj => rfl

/-- An optional field that is read has no value if it is missing or `null`, and otherwise the value that
its document is decoded to. -/
theorem optional_cases {item : Document → Option α} {v : Option α}
    (h : optional record name item = some v) :
    v = none ∧ (record name = none ∨ record name = some .null) ∨
      ∃ d x, record name = some d ∧ d ≠ .null ∧ item d = some x ∧ v = some x := by
  cases hname : record name with
  | none =>
    rw [optional, hname] at h
    exact .inl ⟨(Option.some.inj h).symm, .inl rfl⟩
  | some d =>
    by_cases hd : d = .null
    · subst hd
      rw [optional, hname] at h
      exact .inl ⟨(Option.some.inj h).symm, .inr rfl⟩
    · rw [optional_of_some hname hd] at h
      obtain ⟨x, hx, rfl⟩ := Option.map_eq_some_iff.mp h
      exact .inr ⟨d, x, rfl, hd, hx, rfl⟩

end Decoder

end SqlFilter.Json

namespace SqlFilter

open Json Json.Document Json.Decoder

/-! ## Nodes -/

namespace Expr

/-- The names of operators are member names. -/
theorem name_mem_memberNames (o : Operator) : o.name ∈ memberNames :=
  List.mem_append_left _ (List.mem_map_of_mem o.mem_declared)

/-- **Decoding a node**: its record, with the decoders of one child and of a list of them. -/
theorem decode_succ (budget : Nat) (d : Document) :
    decode (budget + 1) d =
      (d.record? memberNames false).bind (ofRecord? budget (decode budget) (list decode budget)) := by
  cases budget with
  | zero => rfl
  | succ budget =>
    refine (decode.eq_def _ _).trans (congrArg (fun children => (d.record? memberNames false).bind
      (ofRecord? (budget + 1) (decode (budget + 1)) children)) (funext fun d => ?_))
    cases d <;> rfl

end Expr

/-! ## Queries -/

namespace Query

/-- The members of a query that do not belong to its hints. -/
def others (members : List (Option String × Document)) : List (Option String × Document) :=
  members.filter fun m => !isHint m

/-- A member that is no hint is one of the others. -/
theorem others_cons {name : String} (hname : name ∉ hintNames) (d : Document)
    (members : List (Option String × Document)) :
    others ((some name, d) :: members) = (some name, d) :: others members := by
  simp [others, isHint, hname]

/-- The query with a filter and the hints of a record. -/
def withHints? (budget : Nat) (hints : Record) (filter : Expr) : Option Query := do
  let order ← optional hints "order" (fieldMap integer budget)
  let rawCondition ← optional hints "where" (string budget)
  let offset ← optional hints "offset" (integer budget)
  let limit ← optional hints "limit" (integer budget)
  let existsOnly ← optional hints "exists" (bool budget)
  let skip ← optional hints "skip" (integer budget)
  let take ← optional hints "take" (integer budget)
  return ⟨filter, order, rawCondition, offset, limit, existsOnly, skip, take⟩

/-- Hints are looked up under their names. -/
theorem withHints?_congr {budget : Nat} {hints hints' : Record}
    (h : ∀ n ∈ hintNames, hints n = hints' n) : withHints? budget hints = withHints? budget hints' := by
  funext filter
  have hoptional {α : Type} (item : Document → Option α) (n : String) (hn : n ∈ hintNames) :
      optional hints n item = optional hints' n item :=
    optional_congr (h n hn) item
  rw [withHints?, withHints?, hoptional _ "order" (by decide), hoptional _ "where" (by decide),
    hoptional _ "offset" (by decide), hoptional _ "limit" (by decide),
    hoptional _ "exists" (by decide), hoptional _ "skip" (by decide), hoptional _ "take" (by decide)]

/-- **Decoding a query**: the record of its hints, and the record of the other members if these fit. -/
theorem decode_obj (budget : Nat) (members : List (Option String × Document)) :
    decode (budget + 1) (.obj members) =
      ((Document.obj members).record? hintNames false).bind fun hints =>
        ((Document.obj (others members)).record? Expr.memberNames false).bind fun record =>
          if membersFit budget (others members) then
            (Expr.ofRecord? budget (Expr.decode budget) (list Expr.decode budget) record).bind
              (withHints? budget hints)
          else none := by
  rw [decode, others]
  generalize (Document.obj members).record? hintNames false = hints
  cases hints with
  | none => rfl
  | some hints =>
    generalize members.filter (fun m => !isHint m) = others
    dsimp only [Option.bind_eq_bind, Option.bind_some]
    cases membersFit budget others <;> rfl

end Query

end SqlFilter
