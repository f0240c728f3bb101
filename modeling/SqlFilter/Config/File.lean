import SqlFilter.Compiled
import SqlFilter.Selection

set_option relaxedAutoImplicit false
set_option autoImplicit false

/-!
# Configuration files

A configuration file is a JSON object of four sections, each of which may be absent and may set some of
its settings. Files are laid over one another: for every setting by itself, the last file that sets it
decides.

## Main definitions

* `CompilerSection`, `LimitsSection`, `PagingSection`, `DatabaseSection`, `Sections` — what a file sets.
* `Sections.onTopOf` — the settings of two files together.
* `ConfigFile`, `ConfigFile.decode` — a file, with the names of the members that have no meaning.
-/

namespace SqlFilter

/-! ## Sections -/

/-- The settings of the compiler. -/
structure CompilerSection where
  table : Option String
  quote : Option Quote
  priority : Option Priority
deriving DecidableEq, Inhabited

/-- The limits on query texts. -/
structure LimitsSection where
  maxBytes : Option Nat
  maxDepth : Option Nat
deriving DecidableEq, Inhabited

/-- The sizes of pages. -/
structure PagingSection where
  defaultTake : Option Int
  maxTake : Option Int
deriving DecidableEq, Inhabited

/-- The database. -/
structure DatabaseSection where
  path : Option String
deriving DecidableEq, Inhabited

/-- The sections of a file. -/
structure Sections where
  compiler : Option CompilerSection
  limits : Option LimitsSection
  paging : Option PagingSection
  database : Option DatabaseSection
deriving DecidableEq, Inhabited

/-! ## Laying files over one another -/

/-- The settings of a later section, and those of an earlier one that the later leaves open. -/
def CompilerSection.onTopOf (later earlier : CompilerSection) : CompilerSection :=
  ⟨later.table.or earlier.table, later.quote.or earlier.quote,
    later.priority.or earlier.priority⟩

@[inherit_doc CompilerSection.onTopOf]
def LimitsSection.onTopOf (later earlier : LimitsSection) : LimitsSection :=
  ⟨later.maxBytes.or earlier.maxBytes, later.maxDepth.or earlier.maxDepth⟩

@[inherit_doc CompilerSection.onTopOf]
def PagingSection.onTopOf (later earlier : PagingSection) : PagingSection :=
  ⟨later.defaultTake.or earlier.defaultTake, later.maxTake.or earlier.maxTake⟩

@[inherit_doc CompilerSection.onTopOf]
def DatabaseSection.onTopOf (later earlier : DatabaseSection) : DatabaseSection :=
  ⟨later.path.or earlier.path⟩

namespace Sections

/-- The sections of no file. -/
def empty : Sections := ⟨none, none, none, none⟩

/-- The sections of two files together. A section that both have is laid over setting by setting. -/
def onTopOf (later earlier : Sections) : Sections where
  compiler := Option.merge CompilerSection.onTopOf later.compiler earlier.compiler
  limits := Option.merge LimitsSection.onTopOf later.limits earlier.limits
  paging := Option.merge PagingSection.onTopOf later.paging earlier.paging
  database := Option.merge DatabaseSection.onTopOf later.database earlier.database

end Sections

/-! ## Reading a file -/

section Decoding

open Json Json.Decoder

/-- Decodes the section of the compiler. An array has to give all its settings. -/
def CompilerSection.decode : Decoder CompilerSection
  | budget + 1, d => do
    let record ← d.record? ["alias", "quote", "order_priority"] true
    let table ← optional record "alias" (string budget)
    let quote ← optional record "quote" (choice Quote.ofName? budget)
    let priority ← optional record "order_priority" (choice Priority.ofName? budget)
    return ⟨table, quote, priority⟩
  | 0, _ => none

/-- Decodes the section of the limits. An array has to give all its settings. -/
def LimitsSection.decode : Decoder LimitsSection
  | budget + 1, d => do
    let record ← d.record? ["max_json_bytes", "max_depth"] true
    let maxBytes ← optional record "max_json_bytes" (natural budget)
    let maxDepth ← optional record "max_depth" (natural budget)
    return ⟨maxBytes, maxDepth⟩
  | 0, _ => none

/-- Decodes the section of the page sizes. An array has to give all its settings. -/
def PagingSection.decode : Decoder PagingSection
  | budget + 1, d => do
    let record ← d.record? ["default_take", "max_take"] true
    let defaultTake ← optional record "default_take" (integer budget)
    let maxTake ← optional record "max_take" (integer budget)
    return ⟨defaultTake, maxTake⟩
  | 0, _ => none

/-- Decodes the section of the database. An array has to give all its settings. -/
def DatabaseSection.decode : Decoder DatabaseSection
  | budget + 1, d => do
    let record ← d.record? ["path"] true
    let path ← optional record "path" (string budget)
    return ⟨path⟩
  | 0, _ => none

end Decoding

/-- A configuration file. -/
structure ConfigFile where
  sections : Sections
  /-- The names of the members that are no section, each once, in the order of the file. -/
  unknown : List String
deriving DecidableEq, Inhabited

namespace ConfigFile

/-- The names of the sections. -/
def sectionNames : List String := ["compiler", "limits", "pagination", "database"]

open Json in
/-- The names of the members of an object that are no section, each once. They are those of its value,
so an embedded text in the first place stands for them all. -/
def unknownNames? (budget : Nat) (members : List (Option String × Document)) :
    Option (List String) :=
  if !Document.membersFit budget members then none
  else
    let read := if (Document.embedded? members).isSome then members.take 1 else members
    (Decoder.value (budget + 1) (.obj read)).map fun
      | .obj values => values.map Prod.fst
      | _ => []

open Json Json.Decoder in
/-- Decodes a file. The members that are no section have to fit. -/
def decode : Decoder ConfigFile
  | budget + 1, .obj members => do
    let record ← (Document.obj members).record? sectionNames false
    let unknown ← unknownNames? budget (members.filter fun m =>
      !sectionNames.any fun n => m.1 = some n)
    let compiler ← optional record "compiler" (CompilerSection.decode budget)
    let limits ← optional record "limits" (LimitsSection.decode budget)
    let paging ← optional record "pagination" (PagingSection.decode budget)
    let database ← optional record "database" (DatabaseSection.decode budget)
    return ⟨⟨compiler, limits, paging, database⟩, unknown⟩
  | _, _ => none

/-- The text that warns of members without a meaning, if there are any. -/
def warning? (file : ConfigFile) : Option String :=
  if file.unknown.isEmpty then none else some (", ".intercalate file.unknown)

end ConfigFile

end SqlFilter
