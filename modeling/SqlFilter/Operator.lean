import SqlFilter.FieldMap
import SqlFilter.Json.Decoder

set_option relaxedAutoImplicit false
set_option autoImplicit false

/-!
# Operators and operands

A node of a filter tests fields with operators. The kind of an operator fixes what its operands are:
a scalar to compare with, a pattern to match, a list to be a member of, or whether to be null.

## Main definitions

* `Scalar` — truth values, numbers and strings.
* `Kind`, `Kind.Operand` — the kinds of operands.
* `Operator` — the operators, with their names and their SQL tokens.
* `OperatorMaps` — the maps of a node: for each operator the operands of the fields it tests.
-/

namespace SqlFilter

/-! ## Operands -/

/-- A value that a column can be compared with. -/
inductive Scalar where
  | bool (value : Bool)
  | num (value : Json.Number)
  | str (value : String)
deriving DecidableEq, Inhabited

namespace Scalar

/-- A scalar as a JSON value. -/
def toJson : Scalar → Json
  | .bool b => .bool b
  | .num n => .num n
  | .str s => .str s

/-- Decodes a scalar. -/
def decode : Json.Decoder Scalar
  | _, .bool b => some (.bool b)
  | _, .num n => n.map .num
  | _, .str s => s.map .str
  | _, _ => none

end Scalar

/-- What the operands of an operator are. -/
inductive Kind where
  | scalars
  | patterns
  | members
  | nulls
deriving DecidableEq

namespace Kind

/-- The operands of a kind. -/
abbrev Operand : Kind → Type
  | .scalars => Scalar
  | .patterns => String
  | .members => List Scalar
  | .nulls => Bool

/-- The name of a kind. -/
def name : Kind → String
  | .scalars => "scalars"
  | .patterns => "patterns"
  | .members => "members"
  | .nulls => "nulls"

/-- The kind of a name. -/
def ofName? (name : String) : Option Kind :=
  [Kind.scalars, .patterns, .members, .nulls].find? fun k => k.name = name

/-- Decodes an operand. -/
def decode : (k : Kind) → Json.Decoder k.Operand
  | .scalars => Scalar.decode
  | .patterns => Json.Decoder.string
  | .members => Json.Decoder.list Scalar.decode
  | .nulls => Json.Decoder.bool

/-- An operand as a JSON value. -/
def toJson : (k : Kind) → k.Operand → Json
  | .scalars, s => s.toJson
  | .patterns, s => .str s
  | .members, items => .arr (items.map Scalar.toJson)
  | .nulls, b => .bool b

end Kind

/-! ## Operators -/

/-- The operators of a filter. `when` and `eq` both ask for equality. -/
inductive Operator where
  | when
  | eq
  | ne
  | gt
  | gte
  | lt
  | lte
  | like
  | notLike
  | regex
  | member
  | notMember
  | null
deriving DecidableEq

namespace Operator

/-- The name of an operator in a filter. -/
def name : Operator → String
  | .when => "if"
  | .eq => "eq"
  | .ne => "ne"
  | .gt => "gt"
  | .gte => "gte"
  | .lt => "lt"
  | .lte => "lte"
  | .like => "like"
  | .notLike => "nlike"
  | .regex => "rlike"
  | .member => "in"
  | .notMember => "nin"
  | .null => "nil"

/-- The token of an operator in a statement. The null test is spelled out by the condition. -/
def token : Operator → String
  | .when | .eq => "="
  | .ne => "<>"
  | .gt => ">"
  | .gte => ">="
  | .lt => "<"
  | .lte => "<="
  | .like => "LIKE"
  | .notLike => "NOT LIKE"
  | .regex => "RLIKE"
  | .member => "IN"
  | .notMember => "NOT IN"
  | .null => "IS"

/-- The operands that an operator takes. -/
def kind : Operator → Kind
  | .when | .eq | .ne | .gt | .gte | .lt | .lte => .scalars
  | .like | .notLike | .regex => .patterns
  | .member | .notMember => .members
  | .null => .nulls

/-- The operands of an operator. -/
abbrev Operand (o : Operator) : Type := o.kind.Operand

/-- The operators in the order in which a filter is written. -/
def declared : List Operator :=
  [.when, .eq, .ne, .gt, .gte, .lt, .lte, .like, .notLike, .regex, .member, .notMember, .null]

/-- The operators in the order in which conditions are generated. -/
def compiled : List Operator :=
  [.when, .eq, .ne, .gt, .gte, .lt, .lte, .like, .regex, .notLike, .member, .notMember, .null]

/-- The operator of a name. -/
def ofName? (name : String) : Option Operator := declared.find? fun o => o.name = name

/-- An operator asks for membership, so that its placeholder stands for a list. -/
def isMembership : Operator → Bool
  | .member | .notMember => true
  | _ => false

/-- Every operator is declared. -/
theorem mem_declared (o : Operator) : o ∈ declared := by cases o <;> decide

/-- Every operator is compiled. -/
theorem mem_compiled (o : Operator) : o ∈ compiled := by cases o <;> decide

/-- A value for every operator, if there is one for each. -/
def tabulate? {β : Operator → Type} (f : (o : Operator) → Option (β o)) :
    Option ((o : Operator) → β o) :=
  if h : ∀ o ∈ declared, (f o).isSome then some fun o => (f o).get (h o (mem_declared o)) else none

/-- A table has at every operator the value that was asked for there. -/
theorem tabulate?_eq_some_iff {β : Operator → Type} {f : (o : Operator) → Option (β o)}
    {g : (o : Operator) → β o} : tabulate? f = some g ↔ ∀ o, f o = some (g o) := by
  unfold tabulate?
  constructor
  · intro h o
    split at h
    · rename_i present
      obtain rfl := Option.some.inj h
      exact (Option.some_get (present o (mem_declared o))).symm
    · contradiction
  · intro h
    have present : ∀ o ∈ declared, (f o).isSome := fun o _ => by rw [h o]; rfl
    rw [dif_pos present]
    refine congrArg some (funext fun o => ?_)
    exact Option.get_of_eq_some _ (h o)

end Operator

/-! ## The maps of a node -/

/-- For each operator the operands of the fields that it tests. A map may be present and empty. -/
abbrev OperatorMaps : Type := (o : Operator) → Option (FieldMap o.Operand)

namespace OperatorMaps

/-- A node without any operator. -/
def none : OperatorMaps := fun _ => Option.none

/-- The maps that are present, with their operators, in the order of the operators. -/
def present (maps : OperatorMaps) (operators : List Operator) :
    List ((o : Operator) × FieldMap o.Operand) :=
  operators.filterMap fun o => (maps o).map fun m => ⟨o, m⟩

/-- The fields that the maps test, operator by operator. -/
def fields (maps : OperatorMaps) : List String :=
  (maps.present Operator.declared).flatMap fun m => m.2.fields

/-- No map is present. -/
def isNone (maps : OperatorMaps) : Bool := (maps.present Operator.declared).isEmpty

/-- The map of a kind, decoded. -/
def decodeMap (k : Kind) : Json.Decoder (FieldMap k.Operand) := Json.Decoder.fieldMap k.decode

/-- Decodes the maps from the members that are named like the operators. -/
def decode (budget : Nat) (record : Json.Document.Record) : Option OperatorMaps :=
  Operator.tabulate? fun o => Json.Decoder.optional record o.name (decodeMap o.kind budget)

/-- A field map as a JSON object. -/
def mapToJson (k : Kind) (m : FieldMap k.Operand) : Json :=
  .obj (m.entries.map fun e => (e.1, k.toJson e.2))

/-- The members that the maps are written as. -/
def toMembers (maps : OperatorMaps) : List (String × Json) :=
  (maps.present Operator.declared).map fun m => (m.1.name, mapToJson m.1.kind m.2)

end OperatorMaps

end SqlFilter
