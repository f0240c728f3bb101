import SqlFilter.Text.Blank

set_option relaxedAutoImplicit false
set_option autoImplicit false

/-!
# Paths

A path names a file, with a slash between the names of directories. Users write paths that begin with
a tilde, which stands for their home directory, and paths relative to the current directory. Both are
expanded to absolute paths. Nothing is normalised: the names of a path stay as they are written.

## Main definitions

* `Path.isAbsolute`, `Path.join`, `Path.upward` — absolute paths, paths inside a directory, and the
  directories above a path.
* `Directories`, `Directories.expand` — where relative paths start, and the absolute path of a written
  one.
-/

namespace SqlFilter

namespace Path

/-- A path is absolute when it starts with a slash. -/
def isAbsolute (path : String) : Bool := path.toList.head? = some '/'

/-- A path is open when a name can follow without a slash in between. -/
def isOpen (path : String) : Bool := path.isEmpty || path.toList.getLast? = some '/'

/-- A path as seen from a base. An absolute path has no need of the base. -/
def join (base path : String) : String :=
  if isAbsolute path then path
  else if isOpen base then base ++ path
  else base ++ "/" ++ path

/-- The characters before the last slash of a path. -/
def parentChars (path : List Char) : List Char :=
  ((path.reverse.dropWhile fun c => c ≠ '/').drop 1).reverse

/-- At most so many directories, each above the one before it, from one given by its characters. -/
def climb : Nat → List Char → List String
  | 0, _ => []
  | fuel + 1, path =>
    if path.isEmpty then ["/"] else String.ofList path :: climb fuel (parentChars path)

/-- An absolute directory without a slash at its end, and every directory above it. -/
def upward (directory : String) : List String :=
  climb (directory.toList.length + 1) directory.toList

end Path

/-! ## Expanding paths -/

/-- Where the paths that users write start. -/
structure Directories where
  /-- The home directory, if there is one. -/
  home : Option String
  /-- The current directory. -/
  current : String
deriving DecidableEq, Inhabited

namespace Directories

/-- Replaces a tilde that is a whole name at the start of a path by the home directory. -/
def replaceTilde (directories : Directories) (path : String) : String :=
  match directories.home, path.toList with
  | some home, ['~'] => home
  | some home, '~' :: '/' :: rest => Path.join home (String.ofList rest)
  | _, _ => path

/-- The path that a user means. Blank characters around it do not count, and an empty path is the
current directory. -/
def expand (directories : Directories) (path : String) : String :=
  if (Text.trim path).isEmpty then directories.current
  else Path.join directories.current (directories.replaceTilde (Text.trim path))

end Directories

end SqlFilter
