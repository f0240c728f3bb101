import SqlFilter.Scope

set_option relaxedAutoImplicit false
set_option autoImplicit false

/-!
# Drafts

A filter can be compiled in one pass over its tree. The draft of a predicate is its text as far as it is
written, and the scope goes from each node to the next one: a node takes the next number, adds its
parameters as it meets its fields, and hands the scope on to its children.

## Design

A draft does not keep its parts, so what depends on them is counted while it is written: a separator comes
before every part but the first, and a negation has parentheses if more than one term was counted. What says
nothing is not added, and an absent child says nothing.

## Main definitions

* `Draft` — a text with the numbers of its parts and terms.
* `Draft.push`, `Draft.negated` — one more part, and the negation of a draft.
* `Scope.draft` — the draft of a filter that may be absent.
-/

namespace SqlFilter

/-- The text of a predicate as far as it is written. -/
structure Draft where
  text : String
  /-- The node has begun with a lone `or` or a lone `nor`. -/
  isAlternative : Bool
  parts : Nat
  /-- The number of terms that stand in no parentheses. -/
  terms : Nat
deriving DecidableEq

namespace Draft

/-- Nothing is written. -/
def empty : Draft := ⟨"", false, 0, 0⟩

instance : Inhabited Draft := ⟨empty⟩

/-- A draft says nothing. -/
def isEmpty (d : Draft) : Bool := d.parts = 0

/-- Writes one more part, which has a number of terms. -/
def push (d : Draft) (c : Conjunction) (part : String) (terms : Nat) : Draft :=
  { d with
    text := (if d.isEmpty then d.text else d.text ++ c.separator) ++ part
    parts := d.parts + 1
    terms := d.terms + terms }

/-- The negation of all that is written. -/
def negated (d : Draft) : String :=
  if 1 < d.terms then "NOT (" ++ d.text ++ ")" else "NOT " ++ d.text

/-- Marks a node that begins with a lone child, if that says anything. -/
def mark (d child : Draft) (isLone : Bool) : Draft :=
  { d with isAlternative := d.isAlternative || isLone && !child.isEmpty }

/-- Adds the terms of a list without parentheses. -/
def splice (d : Draft) (c : Conjunction) (items : Draft) : Draft :=
  if items.isEmpty then d else d.push c items.text items.terms

/-- Adds a list in parentheses. -/
def group (d : Draft) (c : Conjunction) (items : Draft) : Draft :=
  if items.isEmpty then d else d.push c ("(" ++ items.text ++ ")") 1

/-- Adds a negated child. -/
def deny (d : Draft) (c : Conjunction) (child : Draft) : Draft :=
  if child.isEmpty then d else d.push c child.negated 1

end Draft

namespace Scope

/-- Adds the operator maps of a node, whose conditions are numbered from a position on. -/
def draftMaps (c : Conjunction) (number : Nat) :
    Scope → Nat → List ((o : Operator) × FieldMap o.Operand) → Draft → Draft × Scope
  | s, _, [], d => (d, s)
  | s, position, ⟨o, m⟩ :: rest, d =>
    match s.map o m c number position with
    | (none, s) => draftMaps c number s position rest d
    | (some t, s) => draftMaps c number s (position + m.size) rest (d.push c (t.text s.naming) 1)

mutual

/-- The draft of a node that stands under a conjunction, and the scope behind it. -/
def draftNode (s : Scope) (c : Conjunction) : Expr → Draft × Scope
  | .node maps not nor and or =>
    let (number, s) := s.enter
    let (d, s) := s.draftMaps c number 0 (maps.present Operator.compiled) .empty
    let (ands, s) := s.draftList .and and
    let d := d.splice c ands
    let (nots, s) := s.draft .and not
    let d := d.deny c nots
    let (nors, s) := s.draft .or nor
    let d := (d.mark nors (d.isEmpty && or.isNone)).deny c nors
    let (ors, s) := s.draftList .or or
    ((d.mark ors (d.isEmpty && nor.isNone)).group c ors, s)

/-- The draft of a filter, and the scope behind it. An absent filter says nothing. -/
def draft (s : Scope) (c : Conjunction) : Option Expr → Draft × Scope
  | none => (.empty, s)
  | some e => s.draftNode c e

/-- The draft of a list of nodes, and the scope behind it. An absent list says nothing. -/
def draftList (s : Scope) (c : Conjunction) : Option (List Expr) → Draft × Scope
  | none => (.empty, s)
  | some es => s.draftItems c es .empty

/-- Adds the terms of a list of nodes, each of which stands under the conjunction of the list. -/
def draftItems (s : Scope) (c : Conjunction) : List Expr → Draft → Draft × Scope
  | [], d => (d, s)
  | e :: es, d =>
    let (item, s) := s.draftNode c e
    s.draftItems c es (d.splice c item)

end

end Scope

end SqlFilter
