import SqlFilter.FieldMap
import SqlFilter.Json.Value

set_option relaxedAutoImplicit false
set_option autoImplicit false

/-!
# JSON documents

A document is the syntax tree of a JSON text: everything the grammar fixes, before any check that
depends on who reads it. Members of an object may repeat. A number out of range and a string with an
unpaired surrogate are part of a document, as leaves without a value; only a reader that needs the
value refuses them.

## Main definitions

* `Json.Document` — the syntax tree.
* `Json.Document.fits` — all leaves have values and the nesting stays within a budget.
* `Json.Document.value?` — the value of a document, in which texts may be embedded.
* `Json.Document.ofJson` — the document of a value.
-/

namespace SqlFilter.Json

/-- The syntax tree of a JSON text. -/
inductive Document where
  | null
  | bool (value : Bool)
  | num (value : Option Number)
  | str (value : Option String)
  | arr (items : List Document)
  | obj (members : List (Option String × Document))
deriving Inhabited

namespace Document

/-- How many arrays and objects of a text may be open at once. -/
def maxNesting : Nat := 127

/-! ## Documents within bounds -/

mutual

/-- All leaves of a document have values, and no more than `budget` arrays and objects are open at
once. -/
def fits : Nat → Document → Bool
  | _, .null => true
  | _, .bool _ => true
  | _, .num n => n.isSome
  | _, .str s => s.isSome
  | 0, .arr _ => false
  | budget + 1, .arr items => itemsFit budget items
  | 0, .obj _ => false
  | budget + 1, .obj members => membersFit budget members

/-- Every item of an array fits. -/
def itemsFit : Nat → List Document → Bool
  | _, [] => true
  | budget, d :: rest => fits budget d && itemsFit budget rest

/-- Every member of an object has a proper name and a document that fits. -/
def membersFit : Nat → List (Option String × Document) → Bool
  | _, [] => true
  | budget, (name, d) :: rest => name.isSome && fits budget d && membersFit budget rest

end

/-! ## Values -/

/-- The name of the member by which an object stands for the value of an embedded text. -/
def embeddedName : String := "$serde_json::private::RawValue"

/-- The text embedded in an object, if its first member has the name for that. The text is missing
where that member is no string or where others follow. -/
def embedded? : List (Option String × Document) → Option (Option String)
  | (name, d) :: rest =>
    if name = some embeddedName then
      match d, rest with
      | .str s, [] => some s
      | _, _ => some none
    else none
  | [] => none

mutual

/-- The value of a document, where `budget` more arrays and objects may be opened and `embedded` gives
the values of embedded texts. A repeated member keeps its first place and takes its last value. -/
def value? (embedded : String → Option Json) : Nat → Document → Option Json
  | _, .null => some .null
  | _, .bool b => some (.bool b)
  | _, .num n => n.map .num
  | _, .str s => s.map .str
  | 0, .arr _ => none
  | budget + 1, .arr items => (itemValues? embedded budget items).map .arr
  | 0, .obj _ => none
  | budget + 1, .obj members =>
    match embedded? members with
    | some text => text.bind embedded
    | none => (memberValues? embedded budget [] members).map .obj

/-- The values of the items of an array. -/
def itemValues? (embedded : String → Option Json) : Nat → List Document → Option (List Json)
  | _, [] => some []
  | budget, d :: rest => do
    let v ← value? embedded budget d
    let vs ← itemValues? embedded budget rest
    return v :: vs

/-- The members of an object, added to those already read. -/
def memberValues? (embedded : String → Option Json) : Nat → List (String × Json) →
    List (Option String × Document) → Option (List (String × Json))
  | _, read, [] => some read
  | budget, read, (name, d) :: rest => do
    let name ← name
    let v ← value? embedded budget d
    memberValues? embedded budget (FieldMap.insertEntry name v read) rest

end

/-! ## The document of a value -/

mutual

/-- The document of a value. -/
def ofJson : Json → Document
  | .null => .null
  | .bool b => .bool b
  | .num n => .num (some n)
  | .str s => .str (some s)
  | .arr items => .arr (ofItems items)
  | .obj members => .obj (ofMembers members)

/-- The documents of the items of an array. -/
def ofItems : List Json → List Document
  | [] => []
  | v :: rest => ofJson v :: ofItems rest

/-- The members of an object, with documents for values. -/
def ofMembers : List (String × Json) → List (Option String × Document)
  | [] => []
  | (k, v) :: rest => (some k, ofJson v) :: ofMembers rest

end

end Document

end SqlFilter.Json
