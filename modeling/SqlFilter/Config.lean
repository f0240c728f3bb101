import SqlFilter.Config.File
import SqlFilter.Host

set_option relaxedAutoImplicit false
set_option autoImplicit false

/-!
# Configuration

The configuration of a run is made of layers: the built-in settings, the file in the user's profile, a
file of the project or one named by the user, and the overrides given for this run. For every setting by
itself, the highest layer that sets it decides. The outcome is checked before anything is done with it.

## Main definitions

* `Config`, `Overrides`, `Config.ofLayers` — the settings in force, those given for one run, and the
  former made of all layers.
* `ConfigError` — why there is no configuration.
* `Config.check` — what holds of every configuration in use.
* `Config.load` — the configuration of a run, with the warnings of its files.
-/

namespace SqlFilter

/-- The settings in force. -/
structure Config where
  compiler : CompilerOptions
  limits : Limits
  paging : Paging
  /-- The absolute path of the database, if one is set. -/
  database : Option String
deriving DecidableEq, Inhabited

/-- The settings given for one run. -/
structure Overrides where
  /-- The configuration file that takes the place of the project's own. -/
  file : Option String
  table : Option String
  quote : Option Quote
  priority : Option Priority
  database : Option String
deriving DecidableEq

namespace Overrides

/-- No overrides. -/
def empty : Overrides := ⟨none, none, none, none, none⟩

instance : Inhabited Overrides := ⟨empty⟩

end Overrides

/-! ## Layers -/

namespace Config

/-- The options of the compiler: those given for the run, else those of a file, else the built-in
ones. -/
def compilerOf (overrides : Overrides) (s : CompilerSection) : CompilerOptions :=
  ⟨(overrides.table.or s.table).getD CompilerOptions.default.table,
    (overrides.quote.or s.quote).getD CompilerOptions.default.quote,
    (overrides.priority.or s.priority).getD CompilerOptions.default.priority⟩

/-- The limits of a file, else the built-in ones. -/
def limitsOf (s : LimitsSection) : Limits :=
  ⟨s.maxBytes.getD Limits.default.maxBytes, s.maxDepth.getD Limits.default.maxDepth⟩

/-- The page sizes of a file, else the built-in ones. -/
def pagingOf (s : PagingSection) : Paging :=
  ⟨s.defaultTake.getD Paging.default.defaultTake, s.maxTake.getD Paging.default.maxTake⟩

/-- The configuration made of the overrides, the sections of the files and the built-in settings. -/
def ofLayers (directories : Directories) (overrides : Overrides) (sections : Sections) : Config where
  compiler := compilerOf overrides (sections.compiler.getD ⟨none, none, none⟩)
  limits := limitsOf (sections.limits.getD ⟨none, none⟩)
  paging := pagingOf (sections.paging.getD ⟨none, none⟩)
  database := (overrides.database.or (sections.database.bind DatabaseSection.path)).map
    directories.expand

end Config

/-! ## Errors -/

/-- Why there is no configuration. -/
inductive ConfigError where
  /-- The file that the user names does not exist. -/
  | fileNotFound (path : String)
  /-- A file cannot be read. -/
  | fileNotReadable (path : String)
  /-- The text of a file is not the JSON of a configuration. -/
  | fileMalformed (path : String)
  /-- The alias of the table is blank. -/
  | blankTable
  /-- No query text would be small enough. -/
  | zeroBytes
  /-- No filter would be flat enough. -/
  | zeroDepth
  /-- A page would have no rows. -/
  | defaultTakeNotPositive
  /-- The largest page is smaller than the usual one. -/
  | maxTakeTooSmall (maxTake defaultTake : Int)
deriving DecidableEq

/-- The text of a configuration error. -/
def ConfigError.message : ConfigError → String
  | .fileNotFound path => "Config file not found: " ++ path
  | .fileNotReadable path => "Failed to read config file: " ++ path
  | .fileMalformed path => "Failed to parse config file: " ++ path
  | .blankTable => "Configuration error: compiler.alias must not be empty"
  | .zeroBytes => "Configuration error: limits.max_json_bytes must be greater than 0"
  | .zeroDepth => "Configuration error: limits.max_depth must be greater than 0"
  | .defaultTakeNotPositive => "Configuration error: pagination.default_take must be greater than 0"
  | .maxTakeTooSmall maxTake defaultTake =>
    "Configuration error: pagination.max_take (" ++ toString maxTake ++
      ") must not be less than pagination.default_take (" ++ toString defaultTake ++ ")"

namespace Config

/-- The configuration itself if it can be used, and otherwise the first thing wrong with it. -/
def check (c : Config) : Except ConfigError Config :=
  if (Text.trim c.compiler.table).isEmpty then .error .blankTable
  else if c.limits.maxBytes = 0 then .error .zeroBytes
  else if c.limits.maxDepth = 0 then .error .zeroDepth
  else if c.paging.defaultTake ≤ 0 then .error .defaultTakeNotPositive
  else if c.paging.maxTake < c.paging.defaultTake then
    .error (.maxTakeTooSmall c.paging.maxTake c.paging.defaultTake)
  else .ok c

/-! ## Loading -/

/-- The name of a configuration file. -/
def fileName : String := "toolkitq.json"

/-- The directory of the profile, inside the home directory. -/
def profileDirectory : String := ".toolkitq"

/-- The file in the user's profile, where there is a home directory. -/
def profilePath? (directories : Directories) : Option String :=
  directories.home.map fun home => Path.join (Path.join home profileDirectory) fileName

/-- The file that is laid over the profile: the one that the user names, which has to exist, or else
the one in the current directory, if it exists. -/
def overlayPath? (host : Host) (overrides : Overrides) : Except ConfigError (Option String) :=
  match overrides.file with
  | some path =>
    if host.isPresent (host.directories.expand path) then .ok (some (host.directories.expand path))
    else .error (.fileNotFound (host.directories.expand path))
  | none => .ok (if host.isPresent fileName then some fileName else none)

/-- Reads a configuration file. -/
def readFile (host : Host) (path : String) : Except ConfigError ConfigFile :=
  match host.readFile? path with
  | none => .error (.fileNotReadable path)
  | some text =>
    match Json.Decoder.decodeText ConfigFile.decode text with
    | none => .error (.fileMalformed path)
    | some file => .ok file

/-- What loading has come to: the warnings of the files read, and a configuration or an error. -/
structure Loaded where
  /-- For every file with members without a meaning, their names. -/
  warnings : List String
  result : Except ConfigError Config

/-- The configuration of the files read so far, with their warnings. -/
def finish (host : Host) (overrides : Overrides) (files : List ConfigFile) : Loaded where
  warnings := files.filterMap ConfigFile.warning?
  result := (ofLayers host.directories overrides
    (files.foldl (fun earlier file => file.sections.onTopOf earlier) .empty)).check

/-- Loading has failed after some files had been read. -/
def fail (files : List ConfigFile) (error : ConfigError) : Loaded where
  warnings := files.filterMap ConfigFile.warning?
  result := .error error

/-- Reads the file laid over the profile, and makes the configuration. -/
def loadOverlay (host : Host) (overrides : Overrides) (files : List ConfigFile) : Loaded :=
  match overlayPath? host overrides with
  | .error e => fail files e
  | .ok none => finish host overrides files
  | .ok (some path) =>
    match readFile host path with
    | .error e => fail files e
    | .ok file => finish host overrides (files ++ [file])

/-- The configuration of a run. The profile is read first, if it exists, then the file laid over it. -/
def load (host : Host) (overrides : Overrides) : Loaded :=
  match (profilePath? host.directories).filter host.isPresent with
  | none => loadOverlay host overrides []
  | some path =>
    match readFile host path with
    | .error e => fail [] e
    | .ok file => loadOverlay host overrides [file]

end Config

end SqlFilter
