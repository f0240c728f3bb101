import SqlFilter.Expr
import SqlFilter.Text.Blank

set_option relaxedAutoImplicit false
set_option autoImplicit false

/-!
# Queries and keys

A query is a filter with hints on order and paging. It comes from a client as a JSON text, which is
held to limits on its size and on the nesting of its filter. Keys are equality constraints that
trusted code adds to the filter of a client.

## Main definitions

* `Query`, `Query.decode`, `Query.toJson` — queries as documents.
* `Limits` — what a query text may not exceed.
* `QueryError` — why a query text is refused.
* `Query.parse`, `Query.parseAllowed`, `Keys.parse` — queries and keys of a text.
-/

namespace SqlFilter

/-! ## Queries -/

/-- A filter with hints on order and paging. -/
structure Query where
  filter : Expr
  /-- The fields to sort by, each with a number whose sign is the direction. -/
  order : Option (FieldMap Int)
  /-- A text that is carried along and never read. -/
  rawCondition : Option String
  offset : Option Int
  limit : Option Int
  existsOnly : Option Bool
  skip : Option Int
  take : Option Int

namespace Query

/-- The query that matches everything. -/
def empty : Query := ⟨.empty, none, none, none, none, none, none, none⟩

instance : Inhabited Query := ⟨empty⟩

/-- The members of a query that do not belong to its filter. -/
def hintNames : List String := ["order", "where", "offset", "limit", "exists", "skip", "take"]

/-- A member belongs to the hints. -/
def isHint (member : Option String × Json.Document) : Bool :=
  match member.1 with
  | none => false
  | some name => hintNames.contains name

open Json Json.Decoder in
/-- Decodes a query, which is written as one object. All members but the hints have to fit, also
those that are otherwise ignored. -/
def decode : Decoder Query
  | budget + 1, .obj members => do
    let hints ← (Document.obj members).record? hintNames false
    let others := members.filter fun m => !isHint m
    let record ← (Document.obj others).record? Expr.memberNames false
    if !Document.membersFit budget others then none
    else
      let filter ← Expr.ofRecord? budget (Expr.decode budget) (list Expr.decode budget) record
      let order ← optional hints "order" (fieldMap integer budget)
      let rawCondition ← optional hints "where" (string budget)
      let offset ← optional hints "offset" (integer budget)
      let limit ← optional hints "limit" (integer budget)
      let existsOnly ← optional hints "exists" (bool budget)
      let skip ← optional hints "skip" (integer budget)
      let take ← optional hints "take" (integer budget)
      return ⟨filter, order, rawCondition, offset, limit, existsOnly, skip, take⟩
  | _, _ => none

/-- A member that is left out when its value is absent. -/
def member {α : Type} (name : String) (toJson : α → Json) : Option α → List (String × Json)
  | none => []
  | some v => [(name, toJson v)]

/-- The order of a query as a JSON object. -/
def orderToJson (order : FieldMap Int) : Json :=
  .obj (order.entries.map fun e => (e.1, Json.ofInt e.2))

/-- A query as a JSON value: the members of its filter and then the hints. -/
def toJson (q : Query) : Json :=
  .obj (q.filter.toMembers ++ member "order" orderToJson q.order
    ++ member "where" Json.str q.rawCondition ++ member "offset" Json.ofInt q.offset
    ++ member "limit" Json.ofInt q.limit ++ member "exists" Json.bool q.existsOnly
    ++ member "skip" Json.ofInt q.skip ++ member "take" Json.ofInt q.take)

/-- Every field that a query refers to: those of the filter and then those of the order. -/
def fields (q : Query) : List String :=
  q.filter.fields ++ (match q.order with | none => [] | some order => order.fields)

end Query

/-! ## Limits and errors -/

/-- What the text of a query may not exceed. -/
structure Limits where
  maxBytes : Nat
  maxDepth : Nat
deriving DecidableEq

namespace Limits

/-- The limits in force when none are set. -/
def default : Limits := ⟨65536, 32⟩

instance : Inhabited Limits := ⟨default⟩

open Json.Decoder in
/-- Decodes limits. A missing one has its default. -/
def decode : Json.Decoder Limits
  | budget + 1, d => do
    let record ← d.record? ["max_json_bytes", "max_depth"] false
    let maxBytes ← withDefault record "max_json_bytes" default.maxBytes (natural budget)
    let maxDepth ← withDefault record "max_depth" default.maxDepth (natural budget)
    return ⟨maxBytes, maxDepth⟩
  | 0, _ => none

/-- Limits as a JSON value. -/
def toJson (l : Limits) : Json :=
  .obj [("max_json_bytes", Json.ofInt l.maxBytes), ("max_depth", Json.ofInt l.maxDepth)]

end Limits

/-- Why the text of a query or of keys is refused. -/
inductive QueryError where
  /-- The text has more bytes than allowed. -/
  | tooLarge (size max : Nat)
  /-- The text is not the JSON of a query. -/
  | malformed
  /-- The filter is nested more deeply than allowed. -/
  | tooDeep (depth max : Nat)
  /-- A field is not among those allowed. -/
  | fieldNotAllowed (field : String)
deriving DecidableEq

/-- The text of a query error. -/
def QueryError.message : QueryError → String
  | .tooLarge size max =>
    "Query JSON exceeds maximum size of " ++ toString max ++ " bytes (" ++ toString size ++
      " bytes given)"
  | .malformed => "Invalid query JSON"
  | .tooDeep depth max =>
    "Query nesting depth " ++ toString depth ++ " exceeds maximum of " ++ toString max
  | .fieldNotAllowed field => "Cannot filter by field: " ++ field

/-! ## Reading queries and keys -/

namespace Query

/-- The query of a text within limits. The size is checked before the text is read, the nesting
after that. -/
def parse (limits : Limits) (text : String) : Except QueryError Query :=
  if limits.maxBytes < text.utf8ByteSize then .error (.tooLarge text.utf8ByteSize limits.maxBytes)
  else
    match Json.Decoder.decodeText decode text with
    | none => .error .malformed
    | some q =>
      if limits.maxDepth < q.filter.depth then .error (.tooDeep q.filter.depth limits.maxDepth)
      else .ok q

/-- The first field of a query that is not among the allowed ones. -/
def forbiddenField? (allowed : List String) (q : Query) : Option String :=
  q.fields.find? fun f => !allowed.contains f

/-- The query of a text within limits, all of whose fields are among the allowed ones. -/
def parseAllowed (limits : Limits) (allowed : List String) (text : String) :
    Except QueryError Query :=
  match parse limits text with
  | .error e => .error e
  | .ok q =>
    match q.forbiddenField? allowed with
    | some field => .error (.fieldNotAllowed field)
    | none => .ok q

end Query

/-- Equality constraints that trusted code adds to a filter. -/
abbrev Keys : Type := FieldMap Scalar

namespace Keys

/-- Decodes keys. -/
def decode : Json.Decoder Keys := Json.Decoder.fieldMap Scalar.decode

/-- The keys of a text. A blank text has none. -/
def parse (text : String) : Except QueryError Keys :=
  if (Text.trim text).isEmpty then .ok .empty
  else
    match Json.Decoder.decodeText decode text with
    | none => .error .malformed
    | some keys => .ok keys

/-- Keys as a JSON value. -/
def toJson (keys : Keys) : Json := OperatorMaps.mapToJson .scalars keys

end Keys

end SqlFilter
