import Mathlib.Data.List.Basic
import Mathlib.Data.List.Nodup
import SqlFilter.Proofs.Conditions

set_option relaxedAutoImplicit false
set_option autoImplicit false

/-!
# Parameters of a filter

Every condition but a null test binds a parameter whose name is made of its field, its node and its
position. These names never collide, whatever the fields are.

## Design

The nodes of a subtree have the numbers of one interval, and the intervals of siblings follow each
other. That is the invariant `Placed`, which two lists of conditions with adjacent intervals keep when
they are joined.

## Main definitions

* `Condition.place` — node and position of a condition.
* `Placed` — conditions numbered by nodes of an interval, each place taken once.

## Main results

* `parameterName_inj` — the name of a parameter gives back field, node and position.
* `Placed.nodup_bindings` — placed conditions bind parameters of distinct names.
* `Expr.placed_conditions` — the conditions of a tree are placed.
* `Expr.nodup_parameters` — no two operands of a tree share a parameter.
* `Expr.notMem_parameters` — a name that ends with no digit is no parameter of a tree.
-/

namespace SqlFilter

/-! ## Names of parameters -/

/-- The characters of the name of a parameter. -/
theorem toList_parameterName (field : String) (node position : Nat) :
    (parameterName field node position).toList =
      field.toList ++ '_' :: ((toString node).toList ++ '_' :: (toString position).toList) := by
  simp [parameterName]

/-- The name of a generated parameter ends with a digit. -/
theorem exists_digit_of_parameterName (field : String) (node position : Nat) :
    ∃ d, (parameterName field node position).toList.getLast? = some d ∧ d.isDigit = true := by
  have hdigits : (toString position).toList = Nat.toDigits 10 position := by
    rw [Nat.toString_eq_repr, Nat.toList_repr]
  have hne : Nat.toDigits 10 position ≠ [] := Nat.toDigits_ne_nil
  refine ⟨(Nat.toDigits 10 position).getLast hne, ?_, ?_⟩
  · rw [toList_parameterName, hdigits, List.getLast?_append, List.getLast?_cons,
      List.getLast?_append, List.getLast?_cons, List.getLast?_eq_some_getLast hne]
    rfl
  · exact Nat.isDigit_of_mem_toDigits (by decide) (by decide) (List.getLast_mem hne)

/-- The text of a number has no underscore. -/
theorem underscore_notMem_toString (n : Nat) : '_' ∉ (toString n).toList := by simp

/-- A number is determined by its text. -/
theorem toList_toString_inj {n m : Nat} (h : (toString n).toList = (toString m).toList) :
    n = m := by
  rw [Nat.toString_eq_repr, Nat.toString_eq_repr, Nat.toList_repr, Nat.toList_repr] at h
  have hvalue := congrArg (Nat.ofDigitChars 10 · 0) h
  simpa only [Nat.ofDigitChars_ten_toDigits] using hvalue

/-- Two texts that agree up to and after their first underscores agree in both pieces. -/
theorem append_underscore_inj_left {a b c d : List Char} (ha : '_' ∉ a) (hb : '_' ∉ b)
    (h : a ++ '_' :: c = b ++ '_' :: d) : a = b ∧ c = d := by
  induction a generalizing b with
  | nil =>
    cases b with
    | nil => exact ⟨rfl, (List.cons.inj h).2⟩
    | cons y b => exact absurd ((List.cons.inj h).1 ▸ List.mem_cons_self) hb
  | cons x a ih =>
    cases b with
    | nil => exact absurd ((List.cons.inj h).1 ▸ List.mem_cons_self) ha
    | cons y b =>
      obtain ⟨rfl, htail⟩ := List.cons.inj h
      obtain ⟨rfl, rfl⟩ :=
        ih (List.not_mem_of_not_mem_cons ha) (List.not_mem_of_not_mem_cons hb) htail
      exact ⟨rfl, rfl⟩

/-- Two texts that agree before and after their last underscores agree in both pieces. -/
theorem append_underscore_inj {a b c d : List Char} (hc : '_' ∉ c) (hd : '_' ∉ d)
    (h : a ++ '_' :: c = b ++ '_' :: d) : a = b ∧ c = d := by
  have hreverse : c.reverse ++ '_' :: a.reverse = d.reverse ++ '_' :: b.reverse := by
    simpa using congrArg List.reverse h
  obtain ⟨hcd, hab⟩ := append_underscore_inj_left (by simpa using hc) (by simpa using hd) hreverse
  exact ⟨List.reverse_injective hab, List.reverse_injective hcd⟩

/-- **The name of a parameter gives back its field, node and position**, whatever underscores and
digits the field has.

**Proof sketch.** The last two underscores of the name are those that the name adds, because numbers
are written without any. -/
theorem parameterName_inj {field field' : String} {node node' position position' : Nat}
    (h : parameterName field node position = parameterName field' node' position') :
    field = field' ∧ node = node' ∧ position = position' := by
  have hchars := congrArg String.toList h
  rw [toList_parameterName, toList_parameterName] at hchars
  have hsplit : field.toList ++ '_' :: (toString node).toList =
      field'.toList ++ '_' :: (toString node').toList ∧
      (toString position).toList = (toString position').toList :=
    append_underscore_inj (underscore_notMem_toString _) (underscore_notMem_toString _)
      (by simpa using hchars)
  obtain ⟨hleft, hposition⟩ := hsplit
  obtain ⟨hfield, hnode⟩ :=
    append_underscore_inj (underscore_notMem_toString _) (underscore_notMem_toString _) hleft
  exact ⟨String.toList_inj.mp hfield, toList_toString_inj hnode, toList_toString_inj hposition⟩

/-! ## Places -/

/-- The place of a condition: its node and its position there. -/
def Condition.place (c : Condition) : Nat × Nat := (c.node, c.position)

/-- Conditions with the same parameter have the same place. -/
theorem Condition.place_eq_of_parameter_eq {c d : Condition} (h : c.parameter = d.parameter) :
    c.place = d.place := by
  obtain ⟨-, hnode, hposition⟩ := parameterName_inj h
  rw [place, place, hnode, hposition]

/-- What a condition binds is its own parameter. -/
theorem Condition.parameter_of_mem_binding? {c : Condition} {b : String × Json}
    (h : b ∈ c.binding?) : b.1 = c.parameter := by
  rw [Condition.binding?] at h
  split at h
  · rw [← Option.some.inj h]
  · simp at h

/-- Conditions whose nodes have numbers above `lo` and up to `hi`, and no two of which have the same
place. -/
structure Placed (lo hi : Nat) (cs : List Condition) : Prop where
  bounded : ∀ c ∈ cs, lo < c.node ∧ c.node ≤ hi
  nodup : (cs.map Condition.place).Nodup

namespace Placed

variable {lo mid hi : Nat} {a b : List Condition}

/-- No conditions are placed in any interval. -/
theorem nil : Placed lo hi [] := ⟨by simp, by simp⟩

/-- Conditions of adjacent intervals are placed together in the interval of both. -/
theorem append (ha : Placed lo mid a) (hb : Placed mid hi b) (hlo : lo ≤ mid) (hhi : mid ≤ hi) :
    Placed lo hi (a ++ b) where
  bounded := by
    intro c hc
    rcases List.mem_append.mp hc with h | h
    · have := ha.bounded c h
      omega
    · have := hb.bounded c h
      omega
  nodup := by
    rw [List.map_append, List.nodup_append]
    refine ⟨ha.nodup, hb.nodup, ?_⟩
    -- a common place would have a node on both sides of `mid`
    intro p hp q hq hpq
    obtain ⟨c, hc, rfl⟩ := List.mem_map.mp hp
    obtain ⟨d, hd, rfl⟩ := List.mem_map.mp hq
    have hnode : c.node = d.node := congrArg Prod.fst hpq
    have := ha.bounded c hc
    have := hb.bounded d hd
    omega

/-- The parameters of placed conditions are distinct. -/
theorem nodup_parameter (h : Placed lo hi a) : (a.map Condition.parameter).Nodup := by
  have hplace := h.nodup
  rw [List.Nodup, List.pairwise_map] at hplace ⊢
  exact hplace.imp fun hne heq => hne (Condition.place_eq_of_parameter_eq heq)

/-- Placed conditions bind parameters of distinct names. -/
theorem nodup_bindings (h : Placed lo hi a) :
    ((a.filterMap Condition.binding?).map Prod.fst).Nodup := by
  have hsublist (cs : List Condition) :
      ((cs.filterMap Condition.binding?).map Prod.fst).Sublist (cs.map Condition.parameter) := by
    induction cs with
    | nil => exact List.Sublist.slnil
    | cons c cs ih =>
      rw [List.filterMap_cons, List.map_cons, Condition.binding?]
      cases c.test with
      | compare operator operand => exact ih.cons_cons _
      | null expected => exact ih.cons _
  exact (hsublist a).nodup h.nodup_parameter

end Placed

/-- The conditions of one node are placed in the interval of that node. -/
theorem placed_numbered (before : Nat) (tests : List (String × Test)) :
    Placed before (before + 1) (numbered (before + 1) 0 tests) where
  bounded := by
    intro c hc
    obtain ⟨t, -, rfl⟩ := List.mem_map.mp hc
    exact ⟨Nat.lt_succ_self before, Nat.le_refl _⟩
  nodup := by
    have hpositions : ((numbered (before + 1) 0 tests).map Condition.place).map Prod.snd =
        List.range' 0 tests.length := by
      rw [← List.zipIdx_map_snd 0 tests, numbered, List.map_map, List.map_map]
      rfl
    exact List.Nodup.of_map Prod.snd (hpositions ▸ List.nodup_range')

namespace Expr

/-- The conditions of a list of trees are placed, if those of each tree are. -/
private theorem placed_conditionsAll_of_forall (es : List Expr)
    (h : ∀ e ∈ es, ∀ before, Placed before (before + e.nodes) (e.conditions before))
    (before : Nat) : Placed before (before + nodesAll es) (conditionsAll es before) := by
  induction es generalizing before with
  | nil => exact Placed.nil
  | cons e es ih =>
    rw [conditionsAll, nodesAll, ← Nat.add_assoc]
    exact (h e (by simp) before).append (ih (fun e' he' => h e' (by simp [he'])) _) (by omega)
      (by omega)

/-- **The conditions of a tree are placed** in the interval of the tree's nodes.

**Proof sketch.** Induction on the tree. The root takes the first number of the interval, and the
children take the intervals that follow, in the order in which they are met. -/
theorem placed_conditions (e : Expr) :
    ∀ before, Placed before (before + e.nodes) (e.conditions before) := by
  induction e using inductionOn with
  | node maps not nor and or hand hnot hnor hor =>
    intro before
    have hroot := placed_numbered before maps.tests
    have hands := placed_conditionsAll_of_forall _ hand (before + 1)
    have hnots := placed_conditionsAll_of_forall _ hnot (beforeNot and before)
    have hnors := placed_conditionsAll_of_forall _ hnor (beforeNor not and before)
    have hors := placed_conditionsAll_of_forall _ hor (beforeOr not nor and before)
    rw [conditions_node, nodes_node]
    have hend : before + (1 + nodesAll (and.getD []) + nodesAll not.toList
        + nodesAll nor.toList + nodesAll (or.getD [])) =
        beforeOr not nor and before + nodesAll (or.getD []) := by
      simp only [beforeOr, beforeNor, beforeNot]
      omega
    have hnot : before + 1 ≤ beforeNot and before := Nat.le_add_right _ _
    have hnor : beforeNot and before ≤ beforeNor not and before := Nat.le_add_right _ _
    have hor : beforeNor not and before ≤ beforeOr not nor and before := Nat.le_add_right _ _
    rw [hend]
    have hstrict := (hroot.append hands (by omega) hnot).append hnots (by omega) hnor
    exact (hstrict.append hnors (by omega) hor).append hors (by omega) (Nat.le_add_right _ _)

/-- The conditions of a list of trees are placed in the interval of all their nodes. -/
theorem placed_conditionsAll (es : List Expr) (before : Nat) :
    Placed before (before + nodesAll es) (conditionsAll es before) :=
  placed_conditionsAll_of_forall es (fun e _ => e.placed_conditions) before

/-- A parameter of a tree is that of one of its conditions. -/
theorem exists_parameter_of_mem_bindings (e : Expr) {b : String × Json} (hb : b ∈ e.bindings) :
    ∃ c ∈ e.conditions 0, b.1 = c.parameter := by
  obtain ⟨c, hc, hbinding⟩ := List.mem_filterMap.mp hb
  exact ⟨c, hc, Condition.parameter_of_mem_binding? hbinding⟩

/-- A name that ends with no digit is no parameter of a filter. -/
theorem notMem_parameters {e : Expr} {name : String} {d : Char}
    (hlast : name.toList.getLast? = some d) (hd : d.isDigit = false) : name ∉ e.parameters := by
  intro h
  obtain ⟨b, hb, hname⟩ := List.mem_map.mp h
  obtain ⟨c, -, hparameter⟩ := e.exists_parameter_of_mem_bindings hb
  obtain ⟨d', hlast', hd'⟩ := exists_digit_of_parameterName c.field c.node c.position
  rw [← hname, hparameter, Condition.parameter, hlast', Option.some.injEq] at hlast
  rw [← hlast, hd'] at hd
  exact absurd hd (by decide)

/-- The parameters of a filter have names. -/
theorem name_ne_empty_of_mem_bindings {e : Expr} {b : String × Json} (hb : b ∈ e.bindings) :
    b.1 ≠ "" := by
  obtain ⟨c, -, hparameter⟩ := e.exists_parameter_of_mem_bindings hb
  rw [hparameter, Condition.parameter, parameterName]
  simp

/-- **No two operands of a tree share a parameter.** -/
theorem nodup_parameters (e : Expr) : e.parameters.Nodup := (e.placed_conditions 0).nodup_bindings

end Expr

end SqlFilter
