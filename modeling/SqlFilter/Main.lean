import SqlFilter.Program

set_option relaxedAutoImplicit false
set_option autoImplicit false

/-!
# The command line program

Reads what a run needs, has the run computed, and prints its outcome.
-/

namespace SqlFilter

/-- What stands at a path of the file system. -/
def entryAt (path : String) : IO Entry := do
  let found ← try discard (IO.FS.Handle.mk path .read); pure true catch _ => pure false
  if !found then return .missing
  try return .file (← IO.FS.readFile path) catch _ => return .unreadable

/-- What stands at each of some paths. -/
def entriesAt (paths : List String) : IO (List (String × Entry)) :=
  paths.mapM fun path => return (path, ← entryAt path)

/-- The host that found some entries and some input. There is no database engine to open a database with. -/
def hostOf (directories : Directories) (entries : List (String × Entry)) (input : Option String) :
    Host where
  directories := directories
  entry path := (entries.lookup path).getD .missing
  input := input

/-- The words of a text that can be names of variables. -/
def namesIn (text : String) : List String :=
  let names (isPart : Char → Bool) : List String :=
    ((text.toList.map fun c => if isPart c then c else ' ').splitBy fun c d => c ≠ ' ' && d ≠ ' ').map
      String.ofList
  names Line.isNamePart ++ names Text.isAlphanumeric

/-- The variables of the process among those of some names. -/
def environmentOf (names : List String) : IO Environment :=
  names.foldlM (fun env name => do
    match ← IO.getEnv name with
    | none => return env
    | some value => return env.insert name value) .empty

/-- The lines of a stream, up to its end. -/
partial def readAll (stream : IO.FS.Stream) (read : String) : IO String := do
  let line ← stream.getLine
  if line.isEmpty then return read else readAll stream (read ++ line)

/-- The text on standard input, if it is one. -/
def readInput : IO (Option String) := do
  try return some (← readAll (← IO.getStdin) "") catch _ => return none

/-- Prints the outcome of a run and gives its status. Warnings are left out when the log is off. -/
def report (outcome : Program.Outcome) : IO UInt32 := do
  if (← IO.getEnv "TOOLKITQ_LOG") ≠ some "off" then
    for names in outcome.warnings do
      IO.eprintln ("WARN Unknown fields in config file (possible typos) fields=" ++ names)
  IO.print outcome.output
  IO.eprint outcome.errors
  return outcome.status.toUInt32

end SqlFilter

open SqlFilter in
/-- Runs the program on the words of its command line. -/
def main (words : List String) : IO UInt32 := do
  let current := (← IO.currentDir).toString
  let files ← entriesAt (Program.environmentPaths current)
  let texts := files.filterMap fun file => file.2.text?
  let env ← environmentOf
    ("HOME" :: Flag.shared.filterMap Flag.environmentName? ++ texts.flatMap namesIn)
  let host := hostOf ⟨none, current⟩ files none
  match Program.fullEnvironment host env with
  | .error e => report (Program.withoutEnvironment e)
  | .ok full =>
    match Invocation.parse full words with
    | .error i => report (Program.interrupted i)
    | .ok invocation =>
      let directories := Program.directoriesIn full host.directories
      let entries ← entriesAt (Program.paths directories invocation)
      let input ← if Program.readsInput invocation then readInput else pure none
      report (Program.run (hostOf directories (files ++ entries) input) env words)
