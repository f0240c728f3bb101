import Mathlib.Data.List.Perm.Basic
import SqlFilter.Proofs.Conditions
import SqlFilter.Proofs.Emptiness
import SqlFilter.Query

set_option relaxedAutoImplicit false
set_option autoImplicit false

/-!
# What a filter means

A filter is a question about a row. The answers to its tests of single columns are given; a test on a
null column has no answer, so there is a third truth value. The meaning of a tree is defined from the
tree alone, by recursion, without any text.

## Design

A part of a filter in which no field is tested has no meaning, and is left out of what it stands in.
So meanings are optional truth values, and an absent one is neutral for both conjunctions.

## Main definitions

* `Truth` — truth values with an unknown one, and their connectives.
* `Answers` — the answers to tests of columns.
* `Expr.meaning`, `Keys.meaning`, `Query.meaning` — meanings of trees, keys and whole queries.
-/

namespace SqlFilter

/-! ## Truth values -/

/-- Truth values: those of classical logic, and unknown. -/
inductive Truth where
  | yes
  | no
  | unknown
deriving DecidableEq

namespace Truth

/-- What is unknown stays unknown when negated. -/
def not : Truth → Truth
  | .yes => .no
  | .no => .yes
  | .unknown => .unknown

/-- A conjunction fails if one side does, whatever the other one is. -/
def and : Truth → Truth → Truth
  | .no, _ | _, .no => .no
  | .yes, .yes => .yes
  | _, _ => .unknown

/-- A disjunction holds if one side does, whatever the other one is. -/
def or : Truth → Truth → Truth
  | .yes, _ | _, .yes => .yes
  | .no, .no => .no
  | _, _ => .unknown

end Truth

namespace Conjunction

/-- The connective of a conjunction. -/
def apply : Conjunction → Truth → Truth → Truth
  | .and => Truth.and
  | .or => Truth.or

/-- The connectives are associative. -/
theorem apply_assoc (c : Conjunction) (x y z : Truth) :
    c.apply (c.apply x y) z = c.apply x (c.apply y z) := by
  cases c <;> cases x <;> cases y <;> cases z <;> rfl

/-- The connectives are commutative. -/
theorem apply_comm (c : Conjunction) (x y : Truth) : c.apply x y = c.apply y x := by
  cases c <;> cases x <;> cases y <;> rfl

instance (c : Conjunction) : Std.Associative c.apply := ⟨c.apply_assoc⟩

instance (c : Conjunction) : Std.Commutative c.apply := ⟨c.apply_comm⟩

/-- Parts joined by a conjunction. Those without a meaning are left out. -/
def joined (c : Conjunction) (parts : List (Option Truth)) : Option Truth :=
  parts.foldr (Option.merge c.apply) none

@[simp] theorem joined_nil (c : Conjunction) : c.joined [] = none := rfl

@[simp] theorem joined_cons (c : Conjunction) (part : Option Truth) (parts : List (Option Truth)) :
    c.joined (part :: parts) = Option.merge c.apply part (c.joined parts) := rfl

/-- The order of joined parts does not matter. -/
theorem joined_perm (c : Conjunction) {a b : List (Option Truth)} (h : a.Perm b) :
    c.joined a = c.joined b :=
  h.foldr_op_eq

end Conjunction

/-! ## Tests of columns -/

/-- What is asked of a column: to stand in the relation of an operator, which is named by its token,
to an operand, or to be null or not. -/
inductive Question where
  | compare (token : String) (operand : Json)
  | null (expected : Bool)

/-- The answers to tests of columns. -/
abbrev Answers : Type := String → Question → Truth

/-- The question of a test. -/
def Test.question : Test → Question
  | .compare o operand => .compare o.token operand
  | .null expected => .null expected

/-! ## Meanings -/

section

variable (σ : Answers) (naming : Naming)

/-- The meaning of the map of an operator: the tests of its fields, joined. -/
def FieldMap.meaning (c : Conjunction) (o : Operator) {k : Kind} (m : FieldMap k.Operand) :
    Option Truth :=
  c.joined ((m.tests o).map fun t => some (σ (naming.column t.1) t.2.question))

/-- The meaning of the maps of a node: the maps, joined. -/
def OperatorMaps.meaning (maps : OperatorMaps) (c : Conjunction) : Option Truth :=
  c.joined ((maps.present Operator.declared).map fun m => m.2.meaning σ naming c m.1)

mutual

/-- **The meaning of a tree** under a conjunction. The conjunction joins the operator maps of the
root, the conjunction of the `and` items, the negations of the `not` and `nor` children, and the
disjunction of the `or` items. The child of `nor` is read as a disjunction. -/
def Expr.meaning : Expr → Conjunction → Option Truth
  | .node maps not nor and or, c =>
    c.joined
      [maps.meaning σ naming c,
        match and with | none => none | some es => Expr.meaningAll es .and,
        (match not with | none => none | some e => e.meaning .and).map Truth.not,
        (match nor with | none => none | some e => e.meaning .or).map Truth.not,
        match or with | none => none | some es => Expr.meaningAll es .or]

/-- The meanings of a list of trees under a conjunction, joined by it. -/
def Expr.meaningAll : List Expr → Conjunction → Option Truth
  | [], _ => none
  | e :: es, c => Option.merge c.apply (e.meaning c) (Expr.meaningAll es c)

end

/-- The meaning of a node, with its children as lists. -/
theorem Expr.meaning_node (maps : OperatorMaps) (not nor : Option Expr)
    (and or : Option (List Expr)) (c : Conjunction) :
    (Expr.node maps not nor and or).meaning σ naming c =
      c.joined
        [maps.meaning σ naming c, meaningAll σ naming (and.getD []) .and,
          (meaningAll σ naming not.toList .and).map Truth.not,
          (meaningAll σ naming nor.toList .or).map Truth.not,
          meaningAll σ naming (or.getD []) .or] := by
  cases not <;> cases nor <;> cases and <;> cases or <;> simp [meaning, meaningAll]

/-- The meaning of keys: each one equals its value. -/
def Keys.meaning (keys : Keys) : Option Truth :=
  Conjunction.and.joined (keys.entries.map fun e =>
    some (σ (naming.column e.1) (.compare Operator.eq.token e.2.toJson)))

/-- The meaning of keys and a query: both, or either one if the filter stands as an alternative. -/
def Query.meaning (keys : Keys) (q : Query) : Option Truth :=
  (if q.filter.standsAsAlternative then Conjunction.or else .and).joined
    [keys.meaning σ naming, q.filter.meaning σ naming .and]

end

end SqlFilter
