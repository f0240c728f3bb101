import SqlFilter.Ordering
import SqlFilter.Proofs.Parameters

set_option relaxedAutoImplicit false
set_option autoImplicit false

/-!
# The columns that a query sorts by

Ranking the entries of an order changes their order only, so the sort columns are the columns of the
fields of the order, each with the direction of its field. Ranked by magnitude, entries of larger
magnitude come first and those of equal magnitude stay as they are written. There is only one such list.

## Design

Magnitudes are natural numbers, so that the least 64-bit integer has one like any other. That entries of
equal magnitude stay in order is said for each magnitude by itself: the entries that have it are the same
list before and after ranking.

## Main definitions

* `IsRankingOf` — a list is sorted by descending magnitude, and stably so.

## Main results

* `Priority.perm_ranked` — ranking keeps the entries.
* `exists_field_of_mem_sortColumns` — a sort column is the column of a field.
* `IsRankingOf.unique`, `Priority.isRankingOf_ranked` — there is exactly one ranking, which is found.
* `sortColumns_order` — the sort columns of an order.
-/

namespace SqlFilter

/-- Ranking keeps the entries. -/
theorem Priority.perm_ranked (p : Priority) (entries : List (String × Int)) :
    (p.ranked entries).Perm entries := by
  cases p with
  | insertion => exact List.Perm.refl entries
  | magnitude => exact List.mergeSort_perm entries _

/-- **A sort column is the column of a field of the order**, and sorts in the direction of that
field. -/
theorem exists_field_of_mem_sortColumns {naming : Naming} {priority : Priority}
    {order : Option (FieldMap Int)} {c : SortColumn} (hc : c ∈ sortColumns naming priority order) :
    ∃ m ∈ order, ∃ e ∈ m.entries, c = ⟨naming.column e.1, 0 ≤ e.2⟩ := by
  cases order with
  | none => simp [sortColumns] at hc
  | some m =>
    obtain ⟨e, he, rfl⟩ := List.mem_map.mp hc
    exact ⟨m, rfl, e, (priority.perm_ranked m.entries).mem_iff.mp he, rfl⟩

/-! ## Rankings by magnitude -/

/-- A list is a ranking of another one: entries of larger magnitude come first, and those of equal
magnitude stand in it as they stand in the other list. -/
structure IsRankingOf (ranked entries : List (String × Int)) : Prop where
  descending : ranked.Pairwise fun a b => b.2.natAbs ≤ a.2.natAbs
  stable : ∀ n : Nat,
    ranked.filter (fun e => e.2.natAbs = n) = entries.filter fun e => e.2.natAbs = n

namespace IsRankingOf

variable {a b : List (String × Int)}

/-- The first entry of a ranking has the largest magnitude of all entries. -/
theorem natAbs_le_of_mem {e x : String × Int} (h : IsRankingOf (e :: a) b) (hx : x ∈ b) :
    x.2.natAbs ≤ e.2.natAbs := by
  have hclass : x ∈ b.filter fun y => y.2.natAbs = x.2.natAbs := by simpa using hx
  rw [← h.stable] at hclass
  rcases List.mem_cons.mp (List.mem_of_mem_filter hclass) with rfl | hmem
  · exact Nat.le_refl _
  · exact List.rel_of_pairwise_cons h.descending hmem

/-- A list that is sorted by descending magnitude is the only ranking of itself.

**Proof sketch.** Induction on the list. The first entries of both lists have the same magnitude, since
neither can be smaller than the other. So both are the first entry of that magnitude, and what follows
them are again two lists that agree on every magnitude. -/
theorem eq_of_descending (h : IsRankingOf a b)
    (hb : b.Pairwise fun x y => y.2.natAbs ≤ x.2.natAbs) : a = b := by
  induction a generalizing b with
  | nil =>
    cases b with
    | nil => rfl
    | cons y b => simpa using h.stable y.2.natAbs
  | cons x a ih =>
    cases b with
    | nil => simpa using h.stable x.2.natAbs
    | cons y b =>
      have hswapped : IsRankingOf (y :: b) (x :: a) := ⟨hb, fun n => (h.stable n).symm⟩
      have hmagnitude : y.2.natAbs = x.2.natAbs :=
        Nat.le_antisymm (h.natAbs_le_of_mem List.mem_cons_self)
          (hswapped.natAbs_le_of_mem List.mem_cons_self)
      have hclass := h.stable x.2.natAbs
      rw [List.filter_cons_of_pos (by simp), List.filter_cons_of_pos (by simp [hmagnitude])] at hclass
      obtain rfl : x = y := (List.cons.inj hclass).1
      have htail : IsRankingOf a b := by
        refine ⟨h.descending.of_cons, fun n => ?_⟩
        have hn := h.stable n
        rw [List.filter_cons, List.filter_cons] at hn
        split at hn
        · exact (List.cons.inj hn).2
        · exact hn
      rw [ih htail hb.of_cons]

/-- **There is only one ranking of a list.** -/
theorem unique {entries : List (String × Int)} (ha : IsRankingOf a entries)
    (hb : IsRankingOf b entries) : a = b :=
  eq_of_descending ⟨ha.descending, fun n => (ha.stable n).trans (hb.stable n).symm⟩ hb.descending

end IsRankingOf

namespace Priority

/-- **Ranking by magnitude gives the ranking of a list.**

**Proof sketch.** The entries of one magnitude are sorted already, so they are a sublist of the sorted
list as they are one of the list itself, and no others have that magnitude. -/
theorem isRankingOf_ranked (entries : List (String × Int)) :
    IsRankingOf (magnitude.ranked entries) entries := by
  have htrans (a b c : String × Int) (hab : decide (b.2.natAbs ≤ a.2.natAbs) = true)
      (hbc : decide (c.2.natAbs ≤ b.2.natAbs) = true) : decide (c.2.natAbs ≤ a.2.natAbs) = true := by
    simp only [decide_eq_true_eq] at hab hbc ⊢
    omega
  have htotal (a b : String × Int) :
      (decide (b.2.natAbs ≤ a.2.natAbs) || decide (a.2.natAbs ≤ b.2.natAbs)) = true := by
    simp only [Bool.or_eq_true, decide_eq_true_eq]
    omega
  refine ⟨?_, fun n => ?_⟩
  · rw [ranked]
    simpa only [decide_eq_true_eq] using List.pairwise_mergeSort htrans htotal entries
  · have hsorted : (entries.filter fun e => e.2.natAbs = n).Pairwise
        fun a b => decide (b.2.natAbs ≤ a.2.natAbs) = true := by
      refine List.pairwise_of_forall_mem_list fun a ha b hb => ?_
      have haMagnitude : a.2.natAbs = n := by simpa using List.of_mem_filter ha
      have hbMagnitude : b.2.natAbs = n := by simpa using List.of_mem_filter hb
      simp [haMagnitude, hbMagnitude]
    have hranked : (entries.filter fun e => e.2.natAbs = n).Sublist (magnitude.ranked entries) :=
      List.sublist_mergeSort htrans htotal hsorted List.filter_sublist
    have hsublist : (entries.filter fun e => e.2.natAbs = n).Sublist
        ((magnitude.ranked entries).filter fun e => e.2.natAbs = n) := by
      simpa only [List.filter_filter, Bool.and_self] using hranked.filter fun e => e.2.natAbs = n
    have hlength := ((magnitude.perm_ranked entries).filter fun e => e.2.natAbs = n).length_eq
    exact (hsublist.eq_of_length hlength.symm).symm

/-- What is ranked already is not changed by ranking. -/
theorem ranked_ranked (p : Priority) (entries : List (String × Int)) :
    p.ranked (p.ranked entries) = p.ranked entries := by
  cases p with
  | insertion => rfl
  | magnitude =>
    exact (isRankingOf_ranked _).eq_of_descending (isRankingOf_ranked entries).descending

end Priority

/-! ## Sort columns -/

/-- **The sort columns of an order.** Let a query have an order of any number of fields, with any integers.

- There is one sort column for each of the ranked entries: the column of its field, ascending exactly if
  its number is not negative. The ranked entries are those of the order, so that each field has exactly
  one of them.
- By insertion the entries are ranked as they stand in the order.
- By magnitude they are ranked in the only way in which larger magnitudes come first and entries of equal
  magnitude, of whatever sign, stay as they stand in the order.
- Ranking what was ranked changes nothing: an order with the ranked entries has the same sort columns.

**Proof sketch.** Merge sort keeps sorted sublists, and the entries of one magnitude are such a sublist.
A list sorted by descending magnitude is told by its entries of each magnitude. -/
theorem sortColumns_order (naming : Naming) (order : FieldMap Int) :
    (∀ p : Priority,
      sortColumns naming p (some order) =
          (p.ranked order.entries).map (fun e => ⟨naming.column e.1, 0 ≤ e.2⟩) ∧
        (p.ranked order.entries).Perm order.entries ∧
        ((p.ranked order.entries).map Prod.fst).Nodup) ∧
    Priority.insertion.ranked order.entries = order.entries ∧
    (∀ entries, IsRankingOf entries order.entries ↔
      entries = Priority.magnitude.ranked order.entries) ∧
    ∀ p : Priority, sortColumns naming p (some (.ofList (p.ranked order.entries))) =
      sortColumns naming p (some order) := by
  have hnodup (p : Priority) : ((p.ranked order.entries).map Prod.fst).Nodup :=
    ((p.perm_ranked order.entries).map Prod.fst).nodup_iff.mpr order.nodup
  refine ⟨fun p => ⟨rfl, p.perm_ranked order.entries, hnodup p⟩, rfl, fun entries => ⟨fun h => ?_, ?_⟩,
    fun p => ?_⟩
  · exact h.unique (Priority.isRankingOf_ranked order.entries)
  · rintro rfl
    exact Priority.isRankingOf_ranked order.entries
  · have hentries : (FieldMap.ofList (p.ranked order.entries)).entries = p.ranked order.entries :=
      FieldMap.entries_insertAll_of_nodup FieldMap.empty (hnodup p)
    simp only [sortColumns, hentries, p.ranked_ranked]

/-- The least 64-bit integer has a larger magnitude than the greatest one, and entries of opposite numbers
stay as they are written. -/
example :
    sortColumns ⟨"t", .none⟩ .magnitude (some (.ofList
        [("a", 1), ("b", -1), ("c", 0x7fffffffffffffff), ("d", -0x8000000000000000), ("e", 0)])) =
      [⟨"t.d", false⟩, ⟨"t.c", true⟩, ⟨"t.a", true⟩, ⟨"t.b", false⟩, ⟨"t.e", true⟩] := by
  cbv

end SqlFilter
