import SqlFilter.Environment.Assignment
import SqlFilter.FieldMap

set_option relaxedAutoImplicit false
set_option autoImplicit false

/-!
# The environment

The environment of a run is a map from the names of variables to their values. The assignments of an
environment file are added to it, but never replace a variable that is already there.

## Main definitions

* `Environment`, `Environment.lookup?` — the variables, and the value of a name.
* `Environment.load` — the variables with those of a file added.
-/

namespace SqlFilter

/-- The variables of a run. -/
abbrev Environment : Type := FieldMap String

/-- A variable cannot be given a value in which there is a null character. -/
structure EnvironmentError where
  name : String
deriving DecidableEq

/-- The text of an environment error. -/
def EnvironmentError.message (e : EnvironmentError) : String :=
  "The value of '" ++ e.name ++ "' has a null character"

namespace Environment

/-- What follows some characters at the start of others. -/
def after? : List Char → List Char → Option (List Char)
  | [], cs => some cs
  | _ :: _, [] => none
  | c :: start, d :: cs => if c = d then after? start cs else none

/-- The value of a name. The process keeps its variables as texts `NAME=value`, and a name is found
where such a text starts with the name and an equals sign. So a name with an equals sign in it is found
too, where the value of a variable starts with the rest of the name. -/
def lookup? (env : Environment) (name : String) : Option String :=
  match name.toList.dropWhile fun c => c ≠ '=' with
  | [] => env.get? name
  | _ :: rest => do
    let value ← env.get? (String.ofList (name.toList.takeWhile fun c => c ≠ '='))
    (after? (rest ++ ['=']) value.toList).map String.ofList

/-- Adds a variable, unless it is there already. -/
def assign (env : Environment) (a : Assignment) : Except EnvironmentError Environment :=
  if env.contains a.name then .ok env
  else if a.value.toList.contains '\x00' then .error ⟨a.name⟩
  else .ok (env.insert a.name a.value)

/-- Adds the assignments of lines, up to the first that is malformed. A line may use the variables of
the lines before it. -/
def loadLines : Environment → List (Option (List Char)) → Except EnvironmentError Environment
  | env, [] => .ok env
  | env, none :: _ => .ok env
  | env, some line :: rest =>
    match Line.read (fun name => (env.lookup? name).getD "") line with
    | .malformed => .ok env
    | .blank => loadLines env rest
    | .assignment a => (env.assign a).bind fun env => loadLines env rest

/-- Adds the assignments of a file. -/
def load (env : Environment) (text : String) : Except EnvironmentError Environment :=
  env.loadLines (Line.split text)

end Environment

end SqlFilter
