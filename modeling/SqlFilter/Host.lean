import SqlFilter.Database
import SqlFilter.Path

set_option relaxedAutoImplicit false
set_option autoImplicit false

/-!
# The surroundings of a run

What a run may read besides its arguments and its environment: a tree of files, the directories at which
written paths start, standard input, and databases.

## Main definitions

* `Entry` — what stands at a path.
* `Host`, `Host.readFile?` — the files, directories, input and databases of a run.
-/

namespace SqlFilter

/-- What stands at a path. -/
inductive Entry where
  /-- There is nothing. -/
  | missing
  /-- There is something other than a text file. -/
  | unreadable
  /-- There is a file with a text. -/
  | file (text : String)
deriving DecidableEq, Inhabited

namespace Entry

/-- There is something at a path. -/
def isPresent : Entry → Bool
  | .missing => false
  | _ => true

/-- The text at a path. -/
def text? : Entry → Option String
  | .file text => some text
  | _ => none

end Entry

/-- The files, the directories, the input and the databases that a run finds. -/
structure Host where
  directories : Directories
  /-- What stands at an absolute path. -/
  entry : String → Entry
  /-- The text on standard input, if it is one. -/
  input : Option String
  /-- The database at an absolute path, if it can be opened. Without an engine there is none. -/
  database : String → Option Database := fun _ => none

namespace Host

/-- The text of the file at a path, which may be relative to the current directory. -/
def readFile? (host : Host) (path : String) : Option String :=
  (host.entry (Path.join host.directories.current path)).text?

/-- There is something at a path, which may be relative to the current directory. -/
def isPresent (host : Host) (path : String) : Bool :=
  (host.entry (Path.join host.directories.current path)).isPresent

end Host

end SqlFilter
