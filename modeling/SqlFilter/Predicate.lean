import SqlFilter.Identifier
import SqlFilter.Operator

set_option relaxedAutoImplicit false
set_option autoImplicit false

/-!
# Predicates

A predicate is the condition of a statement in structured form: conditions on single columns, joined
and grouped. Its text and its parameters are both read off that structure.

## Design

A predicate is a chain of terms, each with the conjunction that links it to the term on its left. So
the text of a chain is a plain concatenation, and the number of its top-level terms is its length: it
decides whether a negation needs parentheses. Where a chain holds both conjunctions, those of a run
of `AND` bind more tightly, as they do in SQL.

## Main definitions

* `Conjunction`, `Test`, `Condition`, `Term`, `Chain` — the parts of a predicate.
* `Condition.text`, `Term.text`, `Chain.text` — their texts.
* `Chain.conditions`, `Chain.bindings` — the conditions in order, and the parameters they bind.
-/

namespace SqlFilter

/-! ## Conjunctions -/

/-- How conditions are joined. -/
inductive Conjunction where
  | and
  | or
deriving DecidableEq, Inhabited

namespace Conjunction

/-- The keyword of a conjunction. -/
def keyword : Conjunction → String
  | .and => "AND"
  | .or => "OR"

/-- The text between two joined parts. -/
def separator (c : Conjunction) : String := " " ++ c.keyword ++ " "

/-- The conjunction of a name. -/
def ofName? : String → Option Conjunction
  | "and" => some .and
  | "or" => some .or
  | _ => none

end Conjunction

/-! ## Conditions -/

/-- What a condition asks of its column. -/
inductive Test where
  /-- The column stands in the relation of the operator to the operand. -/
  | compare (operator : Operator) (operand : Json)
  /-- The column is null, or is not null. -/
  | null (expected : Bool)

/-- The test that an operator makes with an operand of a kind. A null test is the same for every
operator. -/
def Kind.test (operator : Operator) : (k : Kind) → k.Operand → Test
  | .scalars, s => .compare operator (Kind.toJson .scalars s)
  | .patterns, s => .compare operator (Kind.toJson .patterns s)
  | .members, items => .compare operator (Kind.toJson .members items)
  | .nulls, b => .null b

/-- A test of one column. The node that it belongs to and its position among the conditions of the
node name its parameter. -/
structure Condition where
  field : String
  node : Nat
  position : Nat
  test : Test

namespace Condition

/-- The name of the parameter of a condition. -/
def parameter (c : Condition) : String := parameterName c.field c.node c.position

/-- The parameter that a condition binds, with its value. A null test binds none. -/
def binding? (c : Condition) : Option (String × Json) :=
  match c.test with
  | .compare _ operand => some (c.parameter, operand)
  | .null _ => none

/-- The text of a condition. The placeholder of a list stands in parentheses. -/
def text (naming : Naming) (c : Condition) : String :=
  naming.column c.field ++ " " ++
    match c.test with
    | .compare operator _ =>
      operator.token ++ " " ++
        if operator.isMembership then "(" ++ placeholder c.parameter ++ ")"
        else placeholder c.parameter
    | .null true => "IS NULL"
    | .null false => "IS NOT NULL"

end Condition

/-- The conditions that an operator makes of a map, numbered from a position on. -/
def FieldMap.conditions (operator : Operator) {k : Kind} (m : FieldMap k.Operand)
    (node position : Nat) : List Condition :=
  (m.entries.zipIdx position).map fun e => ⟨e.1.1, node, e.2, k.test operator e.1.2⟩

/-! ## Chains of terms -/

/-- A part of a predicate that needs no parentheses around it. -/
inductive Term where
  /-- Joined conditions in parentheses. -/
  | conditions (joined : Conjunction) (list : List Condition)
  /-- A chain in parentheses. -/
  | group (chain : List (Conjunction × Term))
  /-- A negated chain, in parentheses if it has more than one term. -/
  | not (chain : List (Conjunction × Term))

/-- Terms, each with the conjunction that links it to the term on its left. The link of the first
term has no meaning. -/
abbrev Chain : Type := List (Conjunction × Term)

/-- A chain that is linked to what stands on its left. -/
def Chain.linkedBy (c : Conjunction) : Chain → Chain
  | [] => []
  | (_, t) :: rest => (c, t) :: rest

mutual

/-- The text of a term. -/
def Term.text (naming : Naming) : Term → String
  | .conditions joined list =>
    "(" ++ joined.separator.intercalate (list.map (Condition.text naming)) ++ ")"
  | .group chain => "(" ++ chainText naming chain ++ ")"
  | .not chain =>
    if 1 < chain.length then "NOT (" ++ chainText naming chain ++ ")"
    else "NOT " ++ chainText naming chain

/-- The text of a chain: its terms with the links between them. -/
def chainText (naming : Naming) : List (Conjunction × Term) → String
  | [] => ""
  | (_, t) :: rest => t.text naming ++ linkedText naming rest

/-- The text of terms that follow others: each one after its link. -/
def linkedText (naming : Naming) : List (Conjunction × Term) → String
  | [] => ""
  | (c, t) :: rest => c.separator ++ t.text naming ++ linkedText naming rest

end

/-- The text of a chain. -/
def Chain.text (naming : Naming) (chain : Chain) : String := chainText naming chain

mutual

/-- The conditions of a term, in the order of its text. -/
def Term.allConditions : Term → List Condition
  | .conditions _ list => list
  | .group chain => chainConditions chain
  | .not chain => chainConditions chain

/-- The conditions of a chain, in the order of its text. -/
def chainConditions : List (Conjunction × Term) → List Condition
  | [] => []
  | (_, t) :: rest => t.allConditions ++ chainConditions rest

end

namespace Chain

/-- The conditions of a chain, in the order of its text. -/
def conditions (chain : Chain) : List Condition := chainConditions chain

/-- The parameters that a chain binds, in the order of its text. -/
def bindings (chain : Chain) : List (String × Json) := chain.conditions.filterMap Condition.binding?

end Chain

end SqlFilter
