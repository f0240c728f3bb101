import SqlFilter.Config
import SqlFilter.Invocation.Flag

set_option relaxedAutoImplicit false
set_option autoImplicit false

/-!
# Invocations

The words of a command line are read from left to right, first those in front of the command and then
those after it. A word of its own that gives the value of a flag is only looked at when the next flag or
the end of the level comes, so that an unknown flag is reported before a bad value.

## Main definitions

* `Command`, `Invocation` — what a run is asked to do.
* `Interruption` — why an invocation is not carried out.
* `Reading` — the values read so far at a level.
* `Invocation.parse` — the invocation that words and an environment give.
-/

namespace SqlFilter

/-- What a run is asked to do. -/
inductive Command where
  /-- Print the condition, the parameters, the order and the paging. -/
  | compile
  /-- Print the statement for a page of a table. -/
  | explain (table : String)
  /-- Count the rows of a table. -/
  | count (table : String)
deriving DecidableEq, Inhabited

/-- A command with all that was given for it. -/
structure Invocation where
  command : Command
  keys : Option String
  query : String
  overrides : Overrides
deriving DecidableEq, Inhabited

/-- Why an invocation is not carried out. -/
inductive Interruption where
  /-- The user asks for help. -/
  | help
  /-- The user asks for the version. -/
  | version
  | error (e : UsageError)
deriving DecidableEq

/-! ## Levels -/

/-- The values read so far at a level. -/
structure Reading where
  given : List (Flag × String)
  /-- A flag whose value has not been looked at, and the value, unless it is still to come. -/
  pending : Option (Flag × Option String)

namespace Reading

/-- Nothing has been read. -/
def start : Reading := ⟨[], none⟩

/-- The value of a flag. -/
def get? (r : Reading) (f : Flag) : Option String := r.given.lookup f

/-- A flag waits for its value. -/
def isWaiting (r : Reading) : Bool :=
  match r.pending with
  | some (_, none) => true
  | _ => false

/-- Gives a flag a value, which has to be its first and to be in order. -/
def assign (r : Reading) (f : Flag) (value : String) : Except Interruption Reading :=
  if (r.get? f).isSome then .error (.error (.repeated f))
  else
    match f.fault? value with
    | some e => .error (.error e)
    | none => .ok ⟨r.given ++ [(f, value)], none⟩

/-- Looks at the value of the flag that is pending. -/
def settle (r : Reading) : Except Interruption Reading :=
  match r.pending with
  | none => .ok r
  | some (f, none) => .error (.error (.missingValue f))
  | some (f, some value) => assign ⟨r.given, none⟩ f value

/-- Comes upon a flag, with a value that is attached to it or without one. -/
def enter (r : Reading) (f : Flag) (attached : Option String) : Except Interruption Reading :=
  match f, attached with
  | .help, some _ | .version, some _ => .error (.error (.unwantedValue f))
  | .help, none => r.settle.bind fun _ => .error .help
  | .version, none => r.settle.bind fun _ => .error .version
  | f, some value => r.settle.bind fun r => r.assign f value
  | f, none => r.settle.map fun r => ⟨r.given, some (f, none)⟩

/-- Takes a word as the value that a flag waits for. -/
def take (r : Reading) (word : String) : Reading :=
  ⟨r.given, r.pending.map fun p => (p.1, some word)⟩

/-- What is wrong with the variables that stand for flags not given at a level. -/
def environmentFault? (r : Reading) (env : Environment) : Option UsageError :=
  Flag.shared.findSome? fun f =>
    if (r.get? f).isSome then none else (f.inEnvironment? env).bind f.fault?

/-- Ends a level. -/
def finish (r : Reading) (env : Environment) : Except Interruption Reading :=
  r.settle.bind fun r =>
    match r.environmentFault? env with
    | some e => .error (.error e)
    | none => .ok r

end Reading

/-! ## Words -/

/-- What a word is by its spelling. -/
inductive Word where
  /-- Two hyphens, after which no flag follows. -/
  | separator
  /-- A flag by its name, with a value after an equals sign or without one. -/
  | long (name : String) (attached : Option String)
  /-- A flag by its letter, with a value attached or without one. -/
  | short (letter : Char) (attached : Option String)
  | plain
deriving DecidableEq

namespace Word

/-- What stands before and after the first equals sign. -/
def splitAtEquals (cs : List Char) : String × Option String :=
  (String.ofList (cs.takeWhile fun c => c ≠ '='),
    match cs.dropWhile fun c => c ≠ '=' with
    | [] => none
    | _ :: value => some (String.ofList value))

/-- What a word is by its spelling. A letter may have its value attached with or without an equals
sign. -/
def ofString (word : String) : Word :=
  match word.toList with
  | ['-', '-'] => .separator
  | '-' :: '-' :: rest => .long (splitAtEquals rest).1 (splitAtEquals rest).2
  | ['-', c] => .short c none
  | '-' :: c :: '=' :: value => .short c (some (String.ofList value))
  | '-' :: c :: value => .short c (some (String.ofList value))
  | _ => .plain

end Word

namespace Level

/-- The error of a word that has no place at a level. -/
def stray (level : Level) (word : String) : UsageError :=
  match level with
  | .front => .unknownCommand word
  | .command _ => .unknownArgument word

/-- A word in front of the commands that names one, or asks for help. -/
def isCommandWord (level : Level) (word : String) : Bool :=
  level = .front && ((CommandName.ofWord? word).isSome || word = CommandName.helpWord)

/-- What becomes of the words after a separator, none of which has a place. -/
def afterSeparator (level : Level) : List String → Except Interruption Unit
  | [] => .ok ()
  | word :: _ =>
    .error (.error
      (if level.isCommandWord word then .unknownArgument word else level.stray word))

/-- The answer to a request for help, which may name a command. -/
def helpOn : List String → Interruption
  | [] => .help
  | word :: rest =>
    if !Level.front.isCommandWord word then .error (.unknownCommand word)
    else
      match rest with
      | [] => .help
      | word :: _ => .error (.unknownCommand word)

/-- Reads the words of a level. At the front it stops at a command, which it answers with the words that
follow. -/
def read (level : Level) (r : Reading) :
    List String → Except Interruption (Reading × Option (CommandName × List String))
  | [] => .ok (r, none)
  | word :: rest =>
    if !r.isWaiting && level.isCommandWord word then
      match CommandName.ofWord? word with
      | some name => .ok (r, some (name, rest))
      | none => .error (helpOn rest)
    else
      match Word.ofString word with
      | .separator => (level.afterSeparator rest).map fun _ => (r, none)
      | .long name attached =>
        match level.long? name with
        | none => .error (.error (.unknownArgument word))
        | some f => (r.enter f attached).bind fun r => level.read r rest
      | .short letter attached =>
        match level.short? letter with
        | none => .error (.error (.unknownArgument word))
        | some .help => (r.enter .help none).bind fun r => level.read r rest
        | some .version => (r.enter .version none).bind fun r => level.read r rest
        | some f => (r.enter f attached).bind fun r => level.read r rest
      | .plain =>
        if r.isWaiting then level.read (r.take word) rest
        else .error (.error (level.stray word))

end Level

/-! ## Reading an invocation -/

namespace Invocation

/-- The query when none is given, which matches everything. -/
def defaultQuery : String := "\x7b\x7d"

/-- The value of a flag: the one after the command, else the one in front of it, else that of the
environment. -/
def value? (env : Environment) (front back : Reading) (f : Flag) : Option String :=
  (back.get? f).or ((front.get? f).or (f.inEnvironment? env))

/-- The settings given for a run. -/
def overridesOf (env : Environment) (front back : Reading) : Overrides where
  file := value? env front back .file
  table := value? env front back .tableAlias
  quote := (value? env front back .quote).bind Quote.ofWord?
  priority := (value? env front back .priority).bind Priority.ofWord?
  database := value? env front back .database

/-- The command of a name, which needs a table or does not. -/
def commandOf (name : CommandName) (table : Option String) : Except Interruption Command :=
  match name, table with
  | .compile, _ => .ok .compile
  | .explain, some table => .ok (.explain table)
  | .count, some table => .ok (.count table)
  | _, none => .error (.error .missingTable)

/-- The error of an invocation without a command. -/
def withoutCommand (env : Environment) (front : Reading) : UsageError :=
  if front.given.isEmpty && Flag.shared.all fun f => (f.inEnvironment? env).isNone then .nothingGiven
  else .missingCommand

/-- The invocation that words and an environment give. The words after the command are read to their
end before those in front of it are looked at again. -/
def parse (env : Environment) (words : List String) : Except Interruption Invocation := do
  match ← Level.front.read .start words with
  | (front, none) =>
    let front ← front.finish env
    .error (.error (withoutCommand env front))
  | (front, some (name, rest)) =>
    let (back, _) ← (Level.command name).read .start rest
    let back ← back.finish env
    let command ← commandOf name (back.get? .table)
    let front ← front.finish env
    return ⟨command, back.get? .keys, (back.get? .query).getD defaultQuery,
      overridesOf env front back⟩

end Invocation

end SqlFilter
