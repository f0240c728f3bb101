import SqlFilter.Invocation
import SqlFilter.Json.Printer

set_option relaxedAutoImplicit false
set_option autoImplicit false

/-!
# The program

A run loads its environment file, reads its arguments, loads its configuration and carries out a
command. All of it is a function of what the run finds; only reading files, printing and the answers of
databases are left to the outside.

## Main definitions

* `Failure` — why a command is not carried out.
* `Host.readArgument` — the text that an argument stands for.
* `Program.compile` — the compiled query of a run.
* `Program.Outcome`, `Program.run` — what a run prints, and with which status it exits.
-/

namespace SqlFilter

/-! ## Failures -/

/-- Why a command is not carried out. -/
inductive Failure where
  | config (e : ConfigError)
  /-- Standard input has no text. -/
  | inputNotReadable
  | fileNotReadable (path : String)
  | keys (e : QueryError)
  | query (e : QueryError)
  | statement (e : BindError)
  | noDatabase
  | databaseNotOpened (path : String)
  /-- The database does not answer. -/
  | database (text : String)
deriving DecidableEq

/-- The text of a failure. -/
def Failure.message : Failure → String
  | .config e => e.message
  | .inputNotReadable => "Failed to read JSON from stdin"
  | .fileNotReadable path => "Failed to read JSON file: " ++ path
  | .keys e => "Invalid --keys: " ++ e.message
  | .query e => "Invalid --query: " ++ e.message
  | .statement e => e.message
  | .noDatabase => "No database given. Use --database or set database.path in the config"
  | .databaseNotOpened path => "Failed to open database: " ++ path
  | .database text => "SQLite error: " ++ text

/-! ## Arguments -/

namespace Host

/-- Standard input has been read to its end. -/
def afterInput (host : Host) : Host := { host with input := host.input.map fun _ => "" }

/-- The text that an argument stands for, and what is found after reading it. A hyphen stands for
standard input and an at sign before a path for a file; anything else is the text itself. -/
def readArgument (host : Host) (argument : String) : Except Failure (String × Host) :=
  match argument.toList with
  | ['-'] =>
    match host.input with
    | none => .error .inputNotReadable
    | some text => .ok (text, host.afterInput)
  | '@' :: path =>
    match host.readFile? (host.directories.expand (String.ofList path)) with
    | none => .error (.fileNotReadable (host.directories.expand (String.ofList path)))
    | some text => .ok (text, host)
  | _ => .ok (argument, host)

end Host

namespace Program

/-- The keys of an argument, if there is one. -/
def readKeys (host : Host) : Option String → Except Failure (Keys × Host)
  | none => .ok (.empty, host)
  | some argument => do
    let (text, host) ← host.readArgument argument
    let keys ← (Keys.parse text).mapError .keys
    return (keys, host)

/-- Compiles the keys and the query of two arguments. The keys are read and parsed first. -/
def compile (host : Host) (config : Config) (keys : Option String) (query : String) :
    Except Failure Compiled := do
  let (keys, host) ← readKeys host keys
  let (text, _) ← host.readArgument query
  let q ← (Query.parse config.limits text).mapError .query
  return q.compile config.compiler keys

/-! ## Commands -/

/-- A bound statement as a JSON value. -/
def statementToJson (b : BoundStatement) : Json :=
  .obj [("sql", .str b.sql), ("values", .arr b.values)]

/-- The text that a command prints. Rows are counted by the database that the host has at the path of the
configuration; its answer is what is printed. -/
def perform (host : Host) (config : Config) (invocation : Invocation) : Except Failure String :=
  match invocation.command with
  | .compile => do
    let compiled ← compile host config invocation.keys invocation.query
    return compiled.toJson.indented
  | .explain table => do
    let compiled ← compile host config invocation.keys invocation.query
    let selection : Selection := ⟨table, config.compiler.naming, compiled⟩
    let b ← (selection.page config.paging).mapError .statement
    return (statementToJson b).indented
  | .count table =>
    match config.database with
    | none => .error .noDatabase
    | some path => do
      let compiled ← compile host config invocation.keys invocation.query
      match host.database path with
      | none => .error (.databaseNotOpened path)
      | some database =>
        let selection : Selection := ⟨table, config.compiler.naming, compiled⟩
        let b ← selection.count.mapError .statement
        let total ← (database.answer b).mapError .database
        return toString total

/-! ## Runs -/

/-- What a run comes to. -/
structure Outcome where
  status : Nat
  output : String
  errors : String
  /-- The names of members of configuration files that have no meaning, for every file with any. -/
  warnings : List String
deriving DecidableEq

/-- The name and the version of the program. -/
def versionText : String := "toolkitq 0.4.2\n"

/-- The help on the program. -/
def helpText : String :=
  "Compile filter documents into parameterized SQL\n\n" ++
  "Usage: toolkitq [OPTIONS] <COMMAND>\n\n" ++
  "Commands:\n" ++
  "  compile  Print the predicate, parameters, order and paging as JSON\n" ++
  "  explain  Print the positional SELECT statement and its values\n" ++
  "  count    Count matching rows in a database\n" ++
  "  help     Print this message\n\n" ++
  "Options:\n" ++
  "  -c, --config <CONFIG>                  Path to config file\n" ++
  "  -a, --alias <ALIAS>                    Table alias used to qualify columns\n" ++
  "      --quote <QUOTE>                    Identifier quoting (none, backtick or double)\n" ++
  "      --order-priority <ORDER_PRIORITY>  Sort column priority (insertion or magnitude)\n" ++
  "  -d, --database <DATABASE>              Database file\n" ++
  "  -t, --table <TABLE>                    Table to select from (explain and count)\n" ++
  "  -k, --keys <KEYS>                      Key constraints (JSON, @file or -)\n" ++
  "  -q, --query <QUERY>                    Query (JSON, @file or -)\n" ++
  "  -h, --help                             Print help\n" ++
  "  -V, --version                          Print version\n"

/-- The outcome of an invocation that is not carried out. -/
def interrupted : Interruption → Outcome
  | .help => ⟨0, helpText, "", []⟩
  | .version => ⟨0, versionText, "", []⟩
  | .error .nothingGiven => ⟨2, "", helpText, []⟩
  | .error e => ⟨2, "", "error: " ++ e.message ++ "\n", []⟩

/-- The outcome of a run that fails. -/
def failed (warnings : List String) (f : Failure) : Outcome :=
  ⟨1, "", "\nError: " ++ f.message ++ "\n\n", warnings⟩

/-- Carries out an invocation. -/
def carryOut (host : Host) (invocation : Invocation) : Outcome :=
  let loaded := Config.load host invocation.overrides
  match loaded.result with
  | .error e => failed loaded.warnings (.config e)
  | .ok config =>
    match perform host config invocation with
    | .error f => failed loaded.warnings f
    | .ok text => ⟨0, text ++ "\n", "", loaded.warnings⟩

/-- The name of the environment file. -/
def environmentFileName : String := ".env"

/-- The paths at which an environment file can stand: in the current directory and those above it. -/
def environmentPaths (current : String) : List String :=
  (Path.upward current).map fun directory => Path.join directory environmentFileName

/-- The environment with the assignments of the nearest environment file. -/
def fullEnvironment (host : Host) (env : Environment) : Except EnvironmentError Environment :=
  match (environmentPaths host.directories.current).findSome? host.readFile? with
  | none => .ok env
  | some text => env.load text

/-- The directories of a run in an environment, which may name another home directory. -/
def directoriesIn (env : Environment) (directories : Directories) : Directories :=
  ⟨((env.get? "HOME").filter fun path => !path.isEmpty).or directories.home, directories.current⟩

/-- The outcome of a run that has no environment. -/
def withoutEnvironment (e : EnvironmentError) : Outcome := ⟨101, "", e.message ++ "\n", []⟩

/-- A run with an environment and words on its command line. -/
def run (host : Host) (env : Environment) (words : List String) : Outcome :=
  match fullEnvironment host env with
  | .error e => withoutEnvironment e
  | .ok env =>
    match Invocation.parse env words with
    | .error i => interrupted i
    | .ok invocation =>
      carryOut { host with directories := directoriesIn env host.directories } invocation

/-! ## What a run needs -/

/-- The file that an argument names. -/
def argumentPath? (directories : Directories) (argument : String) : Option String :=
  match argument.toList with
  | '@' :: path => some (directories.expand (String.ofList path))
  | _ => none

/-- The arguments of an invocation that can name a file. -/
def argumentsOf (invocation : Invocation) : List String :=
  invocation.keys.toList ++ [invocation.query]

/-- The absolute paths at which an invocation may look. -/
def paths (directories : Directories) (invocation : Invocation) : List String :=
  (Config.profilePath? directories).toList.map (Path.join directories.current) ++
    [Path.join directories.current Config.fileName] ++
    (invocation.overrides.file.map directories.expand).toList ++
    (argumentsOf invocation).filterMap (argumentPath? directories)

/-- An invocation reads standard input. -/
def readsInput (invocation : Invocation) : Bool := (argumentsOf invocation).contains "-"

end Program

end SqlFilter
