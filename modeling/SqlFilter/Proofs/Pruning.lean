import Mathlib.Data.Set.Monotone
import SqlFilter.Proofs.Conditions
import SqlFilter.Proofs.Emptiness

set_option relaxedAutoImplicit false
set_option autoImplicit false

/-!
# Filters without their empty parts

A client may sprinkle a filter with empty maps, empty lists and nodes that test no field. To prune the
filter is to remove all of these. The nodes that stay keep their order, and each of them gets as its new
number the number of nodes that stay up to it.

## Design

Which nodes stay is written as a list of marks, one for each node in the order of the numbers, and new
numbers are counted in it. The marks of a subtree are a stretch of the marks of the tree. So what holds
of a subtree is said of any list of marks and of the stretch in it at which the subtree stands.

## Main definitions

* `Expr.prune` — a tree without its empty parts.
* `Expr.marks` — which nodes of a tree stay.
* `newNumber`, `Expr.pruneNumber` — the number that a node gets.
* `Stands`, `Expr.ChildrenStand` — where the marks of a tree and of its children stand.

## Main results

* `OperatorMaps.parts_prune`, `Expr.fields_prune` — what is removed has no parts and no fields.
* `newNumber_strictMonoOn` — nodes that stay keep their order.
* `Expr.stays_of_mem_conditions` — the nodes that have conditions stay.
-/

namespace SqlFilter

/-! ## Pruning -/

/-- Maps without those that have no field. -/
def OperatorMaps.prune (maps : OperatorMaps) : OperatorMaps := fun o =>
  (maps o).filter fun m => !m.isEmpty

namespace Expr

/-- A list of trees as the items of a combinator, which is absent if there are none. -/
def items? : List Expr → Option (List Expr)
  | [] => none
  | e :: es => some (e :: es)

mutual

/-- A tree without its empty parts: at every level the maps without a field, the children of `not` and
`nor` and the items of `and` and `or` in which no field is tested, and then the lists of `and` and `or`
without an item are removed. The root stays. -/
def prune : Expr → Expr
  | .node maps not nor and or =>
    .node maps.prune
      (match not with | none => none | some e => if e.fields.isEmpty then none else some e.prune)
      (match nor with | none => none | some e => if e.fields.isEmpty then none else some e.prune)
      (match and with | none => none | some es => items? (pruneAll es))
      (match or with | none => none | some es => items? (pruneAll es))

/-- The trees of a list in which a field is tested, each without its empty parts. -/
def pruneAll : List Expr → List Expr
  | [] => []
  | e :: es => if e.fields.isEmpty then pruneAll es else e.prune :: pruneAll es

end

/-- The child of a combinator without its empty parts, if a field is tested in it. -/
def pruneChild (child : Option Expr) : Option Expr := (pruneAll child.toList).head?

/-- The items of a combinator without those in which no field is tested. -/
def pruneItems (es : Option (List Expr)) : Option (List Expr) := items? (pruneAll (es.getD []))

/-- A child is pruned like a list of that child alone. -/
theorem pruneChild_some (e : Expr) :
    pruneChild (some e) = if e.fields.isEmpty then none else some e.prune := by
  rw [pruneChild, Option.toList_some, pruneAll, pruneAll]
  split <;> rfl

/-- A node is pruned with all nodes below. -/
theorem prune_node (maps : OperatorMaps) (not nor : Option Expr) (and or : Option (List Expr)) :
    (Expr.node maps not nor and or).prune =
      .node maps.prune (pruneChild not) (pruneChild nor) (pruneItems and) (pruneItems or) := by
  cases not <;> cases nor <;> cases and <;> cases or <;>
    simp only [prune, ← pruneChild_some] <;> rfl

/-- The items that are left. -/
@[simp] theorem getD_items? (es : List Expr) : (items? es).getD [] = es := by
  cases es <;> rfl

/-- A combinator of items is left only if an item is. -/
@[simp] theorem isNone_items? (es : List Expr) : (items? es).isNone = es.isEmpty := by
  cases es <;> rfl

/-- The items that are left of a combinator. -/
@[simp] theorem getD_pruneItems (es : Option (List Expr)) :
    (pruneItems es).getD [] = pruneAll (es.getD []) := getD_items? _

/-- The child that is left of a combinator, as a list. -/
@[simp] theorem toList_pruneChild (child : Option Expr) :
    (pruneChild child).toList = pruneAll child.toList := by
  cases child with
  | none => rfl
  | some e =>
    rw [pruneChild_some, Option.toList_some, pruneAll, pruneAll]
    split <;> rfl

end Expr

/-! ## What stays -/

namespace OperatorMaps

/-- The maps that are left are those that are present and have a field. -/
theorem present_prune (maps : OperatorMaps) (operators : List Operator) :
    maps.prune.present operators = (maps.present operators).filter fun m => !m.2.isEmpty := by
  rw [present, present, List.filter_filterMap]
  refine List.filterMap_congr fun o _ => ?_
  rw [prune]
  cases maps o with
  | none => rfl
  | some m =>
    rw [Option.filter_some, Option.map_some, Option.filter_some]
    split <;> rfl

/-- Maps that are removed have no fields. -/
theorem fields_prune (maps : OperatorMaps) : maps.prune.fields = maps.fields := by
  rw [fields, fields, present_prune]
  induction maps.present Operator.declared with
  | nil => rfl
  | cons m rest ih =>
    rw [List.filter_cons, List.flatMap_cons, ← ih]
    split
    · rw [List.flatMap_cons]
    · rename_i hm
      have hfields : m.2.fields = [] := m.2.isEmpty_iff.mp (by simpa using hm)
      rw [hfields, List.nil_append]

/-- Maps that are removed have no parts. -/
private theorem partsFrom_filter (c : Conjunction) (node : Nat)
    (maps : List ((o : Operator) × FieldMap o.Operand)) (position : Nat) :
    partsFrom c node position (maps.filter fun m => !m.2.isEmpty) =
      partsFrom c node position maps := by
  induction maps generalizing position with
  | nil => rfl
  | cons m rest ih =>
    obtain ⟨o, m⟩ := m
    cases hm : m.isEmpty <;> simp [partsFrom, hm, ih]

/-- **Maps are pruned without a trace** in the parts of their node. -/
theorem parts_prune (maps : OperatorMaps) (c : Conjunction) (node : Nat) :
    maps.prune.parts c node = maps.parts c node := by
  rw [parts, parts, present_prune, partsFrom_filter]

end OperatorMaps

namespace Expr

/-- Pruning keeps the fields of a list of trees, if it keeps those of each tree. -/
private theorem fieldsAll_pruneAll_of_forall (es : List Expr)
    (h : ∀ e ∈ es, e.prune.fields = e.fields) : fieldsAll (pruneAll es) = fieldsAll es := by
  induction es with
  | nil => rfl
  | cons e es ih =>
    have hrest := ih fun e' he' => h e' (by simp [he'])
    rw [pruneAll, fieldsAll]
    split
    · rename_i he
      rw [List.isEmpty_iff.mp he, List.nil_append, hrest]
    · rw [fieldsAll, h e (by simp), hrest]

/-- **Pruning keeps the fields of a tree.** -/
theorem fields_prune (e : Expr) : e.prune.fields = e.fields := by
  induction e using inductionOn with
  | node maps not nor and or hand hnot hnor hor =>
    rw [prune_node, fields_node, fields_node]
    simp only [maps.fields_prune, getD_pruneItems, toList_pruneChild,
      fieldsAll_pruneAll_of_forall _ hand, fieldsAll_pruneAll_of_forall _ hnot,
      fieldsAll_pruneAll_of_forall _ hnor, fieldsAll_pruneAll_of_forall _ hor]

/-- Pruning keeps the fields of a list of trees. -/
theorem fieldsAll_pruneAll (es : List Expr) : fieldsAll (pruneAll es) = fieldsAll es :=
  fieldsAll_pruneAll_of_forall es fun e _ => e.fields_prune

/-- All trees of a list are removed exactly if no field is tested in it. -/
theorem pruneAll_eq_nil_iff (es : List Expr) : pruneAll es = [] ↔ fieldsAll es = [] := by
  induction es with
  | nil => simp [pruneAll, fieldsAll]
  | cons e es ih =>
    rw [pruneAll, fieldsAll, List.append_eq_nil_iff, ← ih, ← List.isEmpty_iff (l := e.fields)]
    split <;> simp [*]

/-! ## Marks -/

mutual

/-- For each node of a tree, in the order of their numbers, whether it stays when the tree is pruned. -/
def marks : Expr → List Bool
  | .node _ not nor and or =>
    true :: ((match and with | none => [] | some es => marksAll es)
      ++ (match not with
        | none => []
        | some e => if e.fields.isEmpty then List.replicate e.nodes false else e.marks)
      ++ (match nor with
        | none => []
        | some e => if e.fields.isEmpty then List.replicate e.nodes false else e.marks)
      ++ (match or with | none => [] | some es => marksAll es))

/-- For each node of a list of trees, whether it stays when the list is pruned. -/
def marksAll : List Expr → List Bool
  | [] => []
  | e :: es =>
    (if e.fields.isEmpty then List.replicate e.nodes false else e.marks) ++ marksAll es

end

/-- The marks of a node are one that is set and those of its children. -/
theorem marks_node (maps : OperatorMaps) (not nor : Option Expr) (and or : Option (List Expr)) :
    (Expr.node maps not nor and or).marks =
      true :: (marksAll (and.getD []) ++ marksAll not.toList ++ marksAll nor.toList
        ++ marksAll (or.getD [])) := by
  cases not <;> cases nor <;> cases and <;> cases or <;>
    simp only [marks, marksAll, Option.toList_none, Option.toList_some, Option.getD_none,
      Option.getD_some, List.append_nil, List.nil_append]

/-- There is a mark for each node of a list of trees, if this holds of each tree. -/
private theorem length_marksAll_of_forall (es : List Expr)
    (h : ∀ e ∈ es, e.marks.length = e.nodes) : (marksAll es).length = nodesAll es := by
  induction es with
  | nil => rfl
  | cons e es ih =>
    rw [marksAll, List.length_append, nodesAll, ih fun e' he' => h e' (by simp [he'])]
    split
    · rw [List.length_replicate]
    · rw [h e (by simp)]

/-- There is a mark for each node of a tree. -/
theorem length_marks (e : Expr) : e.marks.length = e.nodes := by
  induction e using inductionOn with
  | node maps not nor and or hand hnot hnor hor =>
    rw [marks_node, nodes_node]
    simp only [List.length_cons, List.length_append, length_marksAll_of_forall _ hand,
      length_marksAll_of_forall _ hnot, length_marksAll_of_forall _ hnor,
      length_marksAll_of_forall _ hor]
    omega

/-- There is a mark for each node of a list of trees. -/
theorem length_marksAll (es : List Expr) : (marksAll es).length = nodesAll es :=
  length_marksAll_of_forall es fun e _ => e.length_marks

/-- As many marks are set as nodes of a list stay, if this holds of each tree. -/
private theorem count_marksAll_of_forall (es : List Expr)
    (h : ∀ e ∈ es, e.marks.count true = e.prune.nodes) :
    (marksAll es).count true = nodesAll (pruneAll es) := by
  induction es with
  | nil => rfl
  | cons e es ih =>
    rw [marksAll, List.count_append, pruneAll, ih fun e' he' => h e' (by simp [he'])]
    split
    · simp [List.count_replicate]
    · rw [h e (by simp), nodesAll]

/-- As many marks are set as nodes of a tree stay. -/
theorem count_marks (e : Expr) : e.marks.count true = e.prune.nodes := by
  induction e using inductionOn with
  | node maps not nor and or hand hnot hnor hor =>
    rw [marks_node, prune_node, nodes_node]
    simp only [List.count_cons_self, List.count_append, getD_pruneItems, toList_pruneChild,
      count_marksAll_of_forall _ hand, count_marksAll_of_forall _ hnot,
      count_marksAll_of_forall _ hnor, count_marksAll_of_forall _ hor]
    omega

/-- As many marks are set as nodes of a list stay. -/
theorem count_marksAll (es : List Expr) : (marksAll es).count true = nodesAll (pruneAll es) :=
  count_marksAll_of_forall es fun e _ => e.count_marks

end Expr

/-! ## New numbers -/

/-- The number that a node gets when only the marked nodes stay: how many of them there are up to it. -/
def newNumber (marks : List Bool) (number : Nat) : Nat := (marks.take number).count true

/-- The nodes that stay, by their numbers, which count from one. -/
def Stays (marks : List Bool) (number : Nat) : Prop :=
  ∃ before, number = before + 1 ∧ marks[before]? = some true

/-- A stretch of marks that follows a number of others. -/
def Stands (marks : List Bool) (before : Nat) (stretch : List Bool) : Prop :=
  stretch <+: marks.drop before

section

variable {marks : List Bool} {before : Nat}

/-- A stretch of two parts has the second part right after the first. -/
theorem Stands.append_iff {a b : List Bool} :
    Stands marks before (a ++ b) ↔ Stands marks before a ∧ Stands marks (before + a.length) b := by
  unfold Stands
  rw [← List.drop_drop]
  constructor
  · rintro ⟨rest, hrest⟩
    rw [← hrest, List.append_assoc, List.drop_left]
    exact ⟨List.prefix_append _ _, List.prefix_append _ _⟩
  · rintro ⟨⟨rest, hrest⟩, hb⟩
    rw [← hrest, List.drop_left] at hb
    rw [← hrest]
    exact (List.prefix_append_right_inj a).mpr hb

/-- After a stretch there are as many more nodes that stay as marks are set in it. -/
theorem Stands.newNumber_add {stretch : List Bool} (h : Stands marks before stretch) :
    newNumber marks (before + stretch.length) = newNumber marks before + stretch.count true := by
  obtain ⟨rest, hrest⟩ := h
  rw [newNumber, List.take_add, List.count_append, ← hrest, List.take_left, newNumber]

/-- A node that stays gets the next number. -/
theorem newNumber_succ (h : marks[before]? = some true) :
    newNumber marks (before + 1) = newNumber marks before + 1 := by
  rw [newNumber, List.take_add_one, h, List.count_append, newNumber]
  rfl

/-- Nodes do not change places. -/
theorem newNumber_mono (marks : List Bool) : Monotone (newNumber marks) := fun _ _ hle =>
  ((List.take_prefix_take_left hle).sublist).count_le true

/-- **Nodes that stay keep their order.** -/
theorem newNumber_strictMonoOn (marks : List Bool) :
    StrictMonoOn (newNumber marks) {number | Stays marks number} := by
  rintro m - n ⟨before, rfl, hmark⟩ hlt
  have hmono : newNumber marks m ≤ newNumber marks before :=
    newNumber_mono marks (Nat.le_of_lt_succ hlt)
  rw [newNumber_succ hmark]
  exact Nat.lt_succ_of_le hmono

/-- The node of a stretch that begins with a mark that is set stays. -/
theorem Stands.getElem?_eq {stretch : List Bool} (h : Stands marks before (true :: stretch)) :
    marks[before]? = some true := by
  obtain ⟨rest, hrest⟩ := h
  rw [← Nat.add_zero before, ← List.getElem?_drop, ← hrest]
  rfl

namespace Expr

/-- After the marks of a list of trees there are as many more nodes that stay as the pruned list has. -/
theorem newNumber_add_nodesAll {es : List Expr} (h : Stands marks before (marksAll es)) :
    newNumber marks (before + nodesAll es) = newNumber marks before + nodesAll (pruneAll es) := by
  rw [← length_marksAll, h.newNumber_add, count_marksAll]

/-- The marks of a list of trees are those of the first tree, and then those of the others. None is set
for a tree in which no field is tested. -/
theorem stands_marksAll_cons {e : Expr} {es : List Expr}
    (h : Stands marks before (marksAll (e :: es))) :
    Stands marks before (if e.fields.isEmpty then List.replicate e.nodes false else e.marks) ∧
      Stands marks (before + e.nodes) (marksAll es) := by
  rw [marksAll, Stands.append_iff] at h
  refine ⟨h.1, ?_⟩
  have hrest := h.2
  split at hrest
  · rwa [List.length_replicate] at hrest
  · rwa [length_marks] at hrest

/-- The marks of a node's children stand where the children stand, right after the mark of the node. -/
structure ChildrenStand (marks : List Bool) (before : Nat) (not nor : Option Expr)
    (and or : Option (List Expr)) : Prop where
  root : marks[before]? = some true
  ands : Stands marks (before + 1) (marksAll (and.getD []))
  nots : Stands marks (beforeNot and before) (marksAll not.toList)
  nors : Stands marks (beforeNor not and before) (marksAll nor.toList)
  ors : Stands marks (beforeOr not nor and before) (marksAll (or.getD []))

variable {maps : OperatorMaps} {not nor : Option Expr} {and or : Option (List Expr)}

/-- The marks of a node are those of its children after its own. -/
theorem childrenStand_of_stands
    (h : Stands marks before (Expr.node maps not nor and or).marks) :
    ChildrenStand marks before not nor and or := by
  rw [marks_node] at h
  have hroot := h.getElem?_eq
  rw [← List.singleton_append, Stands.append_iff, Stands.append_iff, Stands.append_iff,
    Stands.append_iff] at h
  simp only [List.length_append, length_marksAll, List.length_singleton, ← Nat.add_assoc] at h
  obtain ⟨-, ⟨⟨hand, hnot⟩, hnor⟩, hor⟩ := h
  exact ⟨hroot, hand, hnot, hnor, hor⟩

namespace ChildrenStand

variable (h : ChildrenStand marks before not nor and or)

include h

/-- The new number before the child of `not`. -/
theorem newNumber_beforeNot : newNumber marks (beforeNot and before) =
    beforeNot (pruneItems and) (newNumber marks before) := by
  rw [beforeNot, newNumber_add_nodesAll h.ands, newNumber_succ h.root, beforeNot, getD_pruneItems]

/-- The new number before the child of `nor`. -/
theorem newNumber_beforeNor : newNumber marks (beforeNor not and before) =
    beforeNor (pruneChild not) (pruneItems and) (newNumber marks before) := by
  rw [beforeNor, newNumber_add_nodesAll h.nots, h.newNumber_beforeNot, beforeNor,
    toList_pruneChild]

/-- The new number before the items of `or`. -/
theorem newNumber_beforeOr : newNumber marks (beforeOr not nor and before) =
    beforeOr (pruneChild not) (pruneChild nor) (pruneItems and) (newNumber marks before) := by
  rw [beforeOr, newNumber_add_nodesAll h.nors, h.newNumber_beforeNor, beforeOr, toList_pruneChild]

end ChildrenStand

/-! ## The nodes that have conditions -/

/-- The conditions of a list of trees belong to nodes that stay, if this holds of each tree. -/
private theorem stays_of_mem_conditionsAll_of_forall (es : List Expr)
    (h : ∀ e ∈ es, ∀ before, Stands marks before e.marks →
      ∀ d ∈ e.conditions before, Stays marks d.node)
    (before : Nat) (hstands : Stands marks before (marksAll es)) :
    ∀ d ∈ conditionsAll es before, Stays marks d.node := by
  induction es generalizing before with
  | nil => simp [conditionsAll]
  | cons e es ih =>
    obtain ⟨hfirst, hrest⟩ := stands_marksAll_cons hstands
    rw [conditionsAll, List.forall_mem_append]
    refine ⟨?_, ih (fun e' he' => h e' (by simp [he'])) (before + e.nodes) hrest⟩
    split at hfirst
    · rename_i he
      rw [conditions_eq_nil (List.isEmpty_iff.mp he)]
      simp
    · exact h e (by simp) before hfirst

/-- **The conditions of a tree belong to nodes that stay.** -/
theorem stays_of_mem_conditions (e : Expr) :
    ∀ before, Stands marks before e.marks → ∀ d ∈ e.conditions before, Stays marks d.node := by
  induction e using inductionOn with
  | node maps not nor and or hand hnot hnor hor =>
    intro before hstands
    have hchildren := childrenStand_of_stands hstands
    have hroot : ∀ d ∈ numbered (before + 1) 0 maps.tests, Stays marks d.node := by
      intro d hd
      obtain ⟨t, -, rfl⟩ := List.mem_map.mp hd
      exact ⟨before, rfl, hchildren.root⟩
    rw [conditions_node]
    simp only [List.forall_mem_append]
    exact ⟨⟨⟨⟨hroot, stays_of_mem_conditionsAll_of_forall _ hand _ hchildren.ands⟩,
      stays_of_mem_conditionsAll_of_forall _ hnot _ hchildren.nots⟩,
      stays_of_mem_conditionsAll_of_forall _ hnor _ hchildren.nors⟩,
      stays_of_mem_conditionsAll_of_forall _ hor _ hchildren.ors⟩

end Expr

end

namespace Expr

/-- The number that a node of a tree gets when the tree is pruned. -/
def pruneNumber (e : Expr) : Nat → Nat := newNumber e.marks

/-- The conditions of a tree keep their order when it is pruned. -/
theorem pruneNumber_strictMonoOn (e : Expr) :
    StrictMonoOn e.pruneNumber {number | ∃ d ∈ e.conditions 0, d.node = number} := by
  refine (newNumber_strictMonoOn e.marks).mono ?_
  rintro _ ⟨d, hd, rfl⟩
  exact e.stays_of_mem_conditions 0 (List.prefix_refl _) d hd

end Expr

end SqlFilter
