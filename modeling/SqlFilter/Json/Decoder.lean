import SqlFilter.Json.Reader

set_option relaxedAutoImplicit false
set_option autoImplicit false

/-!
# Decoding documents

A decoder turns a document into a value of some type, or refuses it. It also gets a budget: how many
more arrays and objects may be opened. What a decoder ignores is not checked and costs no budget.

Decoders only answer whether there is a value, since the cause of a refusal is never reported.

## Main definitions

* `Json.Decoder` — the decoders.
* `Json.Decoder.bool`, `string`, `integer`, `natural`, `value`, `choice`, `list`, `fieldMap` — decoders
  of leaves and containers.
* `Json.Decoder.embeddedValue?` — the value of a text embedded in a document.
* `Json.Decoder.optional`, `withDefault` — fields of records that may be missing.
* `Json.Document.record?` — the members of an object, or the items of an array, that stand for the
  fields of a record.
* `Json.Decoder.decodeText` — a decoder applied to a text.
-/

namespace SqlFilter.Json

/-- Turns a document into a value, where a number of arrays and objects may be opened. -/
abbrev Decoder (α : Type) : Type := Nat → Document → Option α

namespace Decoder

variable {α : Type}

/-! ## Leaves -/

/-- A truth value. -/
def bool : Decoder Bool
  | _, .bool b => some b
  | _, _ => none

/-- A string whose surrogates pair. -/
def string : Decoder String
  | _, .str s => s
  | _, _ => none

/-- The greatest 64-bit unsigned integer. -/
def maxNatural : Nat := 0xffffffffffffffff

/-- A signed integer of 64 bits, written as an integer. -/
def integer : Decoder Int
  | _, .num (some (.int i)) => if -0x8000000000000000 ≤ i ∧ i < 0x8000000000000000 then some i else none
  | _, _ => none

/-- An unsigned integer of 64 bits, written as an integer. -/
def natural : Decoder Nat
  | _, .num (some (.int i)) => if 0 ≤ i ∧ i ≤ maxNatural then some i.toNat else none
  | _, _ => none

/-- The value of a text, in which texts may be embedded in one another at most so many deep. -/
def textValue? : Nat → String → Option Json
  | 0, _ => none
  | fuel + 1, text => (Document.read text).bind (Document.value? (textValue? fuel) Document.maxNesting)

/-- The value of a text embedded in a document. A text is longer than those embedded in it, so that its
length bounds how deep they are. -/
def embeddedValue? (text : String) : Option Json := textValue? (text.length + 1) text

/-- Any value. -/
def value : Decoder Json := Document.value? embeddedValue?

/-- One of finitely many names, given as a string or as the only member of an object, with the value
`null`. -/
def choice (ofName : String → Option α) : Decoder α
  | _, .str s => s.bind ofName
  | _ + 1, .obj [(name, .null)] => name.bind ofName
  | _, _ => none

/-! ## Containers -/

/-- The items of an array. -/
def list (item : Decoder α) : Decoder (List α)
  | budget + 1, .arr items => items.mapM (item budget)
  | _, _ => none

/-- Inserts the members of an object into a field map. Every member has to be in order, also one
that a later member of the same name replaces. -/
def insertMembers (item : Document → Option α) (read : FieldMap α) :
    List (Option String × Document) → Option (FieldMap α)
  | [] => some read
  | (name, d) :: rest => do
    let name ← name
    let v ← item d
    insertMembers item (read.insert name v) rest

/-- The members of an object, as a field map. -/
def fieldMap (item : Decoder α) : Decoder (FieldMap α)
  | budget + 1, .obj members => insertMembers (item budget) .empty members
  | _, _ => none

end Decoder

/-! ## Records -/

namespace Document

/-- The documents given to the fields of a record, by the names of the fields. -/
abbrev Record : Type := String → Option Document

/-- How many members have a name. -/
def countMembers (name : String) (members : List (Option String × Document)) : Nat :=
  members.countP fun m => m.1 = some name

/-- The first member of a name. -/
def findMember (name : String) (members : List (Option String × Document)) : Option Document :=
  (members.find? fun m => m.1 = some name).map Prod.snd

/-- Every member has a proper name, and none of the given names occurs twice. -/
def distinctMembers (names : List String) (members : List (Option String × Document)) : Bool :=
  members.all (fun m => m.1.isSome) && names.all fun n => countMembers n members ≤ 1

/-- The record that a document gives to the fields of the given names. In an object the fields are
members and all others are ignored, but no field may be given twice. In an array they are the items
in order; where `complete` holds, none may be missing. -/
def record? (names : List String) (complete : Bool) : Document → Option Record
  | .obj members => if distinctMembers names members then some fun n => findMember n members else none
  | .arr items =>
    if items.length ≤ names.length ∧ (complete = true → items.length = names.length) then
      some fun n => items[names.idxOf n]?
    else none
  | _ => none

end Document

namespace Decoder

variable {α : Type}

/-- A field that may be missing or `null`. -/
def optional (record : Document.Record) (name : String) (item : Document → Option α) :
    Option (Option α) :=
  match record name with
  | none => some none
  | some .null => some none
  | some d => (item d).map some

/-- A field that has a default when it is missing. -/
def withDefault (record : Document.Record) (name : String) (default : α)
    (item : Document → Option α) : Option α :=
  match record name with
  | none => some default
  | some d => item d

/-- Decodes a text. -/
def decodeText (item : Decoder α) (text : String) : Option α :=
  (Document.read text).bind (item Document.maxNesting)

end Decoder

end SqlFilter.Json
