import SqlFilter.Environment
import SqlFilter.Identifier
import SqlFilter.Ordering

set_option relaxedAutoImplicit false
set_option autoImplicit false

/-!
# Flags and commands

A run is invoked with a command and flags. Some flags belong to a command, the others may stand before
or after it and also have a variable of the environment that gives their value.

## Main definitions

* `Flag` — the flags, with their spellings.
* `CommandName`, `Level` — the commands, and the two places at which flags can stand.
* `UsageError`, `Flag.fault?` — what can be wrong with an invocation, and with the value of a flag.
-/

namespace SqlFilter

/-- A flag of the command line. -/
inductive Flag where
  /-- The configuration file. -/
  | file
  /-- The alias of the table. -/
  | tableAlias
  | quote
  | priority
  | database
  | table
  | keys
  | query
  | help
  | version
deriving DecidableEq, Inhabited

namespace Flag

/-- The name after two hyphens. -/
def longName : Flag → String
  | file => "config"
  | tableAlias => "alias"
  | quote => "quote"
  | priority => "order-priority"
  | database => "database"
  | table => "table"
  | keys => "keys"
  | query => "query"
  | help => "help"
  | version => "version"

/-- The letter after one hyphen. -/
def letter? : Flag → Option Char
  | file => some 'c'
  | tableAlias => some 'a'
  | quote => none
  | priority => none
  | database => some 'd'
  | table => some 't'
  | keys => some 'k'
  | query => some 'q'
  | help => some 'h'
  | version => some 'V'

/-- The variable of the environment that gives the value when no word does. -/
def environmentName? : Flag → Option String
  | file => some "TOOLKITQ_CONFIG"
  | tableAlias => some "TOOLKITQ_ALIAS"
  | quote => some "TOOLKITQ_QUOTE"
  | priority => some "TOOLKITQ_ORDER_PRIORITY"
  | database => some "TOOLKITQ_DATABASE"
  | _ => none

/-- The flags that may stand on either side of the command. -/
def shared : List Flag := [file, tableAlias, quote, priority, database]

/-- The value of a flag in the environment. -/
def inEnvironment? (env : Environment) (f : Flag) : Option String :=
  f.environmentName?.bind env.get?

end Flag

/-! ## Commands -/

/-- The commands. -/
inductive CommandName where
  | compile
  | explain
  | count
deriving DecidableEq, Inhabited

namespace CommandName

/-- The word for a command. -/
def word : CommandName → String
  | compile => "compile"
  | explain => "explain"
  | count => "count"

/-- The command of a word. -/
def ofWord? (word : String) : Option CommandName :=
  [compile, explain, count].find? fun c => c.word = word

/-- The word that asks for help and stands in the place of a command. -/
def helpWord : String := "help"

/-- A command works on a table, which has to be given. -/
def needsTable : CommandName → Bool
  | compile => false
  | explain => true
  | count => true

end CommandName

/-- Where a flag stands: before the command, or after it. -/
inductive Level where
  | front
  | command (name : CommandName)
deriving DecidableEq, Inhabited

namespace Level

/-- The flags that may stand at a level. -/
def flags : Level → List Flag
  | front => Flag.shared ++ [.help, .version]
  | command name =>
    (if name.needsTable then [Flag.table] else []) ++ [.keys, .query] ++ Flag.shared ++ [.help]

/-- The flag of a name after two hyphens. -/
def long? (level : Level) (name : String) : Option Flag :=
  level.flags.find? fun f => f.longName = name

/-- The flag of a letter after one hyphen. -/
def short? (level : Level) (c : Char) : Option Flag := level.flags.find? fun f => f.letter? = some c

end Level

/-! ## Errors -/

/-- What is wrong with an invocation. -/
inductive UsageError where
  | unknownArgument (word : String)
  | unknownCommand (word : String)
  | missingCommand
  /-- There are neither words nor variables that say anything. -/
  | nothingGiven
  | missingTable
  | missingValue (flag : Flag)
  | emptyValue (flag : Flag)
  | unwantedValue (flag : Flag)
  /-- A flag stands twice at a level. -/
  | repeated (flag : Flag)
  | unknownQuote (text : String)
  | unknownPriority (text : String)
deriving DecidableEq

/-- The text of a usage error. -/
def UsageError.message : UsageError → String
  | .unknownArgument word => "Unexpected argument '" ++ word ++ "'"
  | .unknownCommand word => "Unrecognized command '" ++ word ++ "'"
  | .missingCommand => "A command is required"
  | .nothingGiven => "Nothing to do"
  | .missingTable => "The option '--table' is required"
  | .missingValue f => "The option '--" ++ f.longName ++ "' needs a value"
  | .emptyValue f => "The value of '--" ++ f.longName ++ "' must not be empty"
  | .unwantedValue f => "The option '--" ++ f.longName ++ "' takes no value"
  | .repeated f => "The option '--" ++ f.longName ++ "' is given more than once"
  | .unknownQuote text =>
    "Invalid quote style '" ++ text ++ "'. Valid options: none, backtick, double"
  | .unknownPriority text =>
    "Invalid order priority '" ++ text ++ "'. Valid options: insertion, magnitude"

/-! ## Values -/

/-- The lower case of a character, as far as it is a letter of ASCII. Those are the capital letters of
ASCII and the Kelvin sign. -/
def foldCase (c : Char) : Char := if c = '\u212a' then 'k' else c.toLower

/-- Two texts are the same word when they agree up to the case of their letters. -/
def sameWord (text word : String) : Bool := text.toList.map foldCase = word.toList

/-- The style that a user means, by its name or by its quotation mark. -/
def Quote.ofWord? (text : String) : Option Quote :=
  [Quote.none, .backtick, .double].find? fun q =>
    sameWord text q.name || text = (q.mark.map Char.toString).getD ""

/-- The priority that a user means, by its name. -/
def Priority.ofWord? (text : String) : Option Priority :=
  [Priority.insertion, .magnitude].find? fun p => sameWord text p.name

/-- What is wrong with a text as the value of a flag. -/
def Flag.fault? (f : Flag) (text : String) : Option UsageError :=
  match f with
  | .file | .database => if text.isEmpty then some (.emptyValue f) else none
  | .quote => if (Quote.ofWord? text).isNone then some (.unknownQuote text) else none
  | .priority => if (Priority.ofWord? text).isNone then some (.unknownPriority text) else none
  | _ => none

end SqlFilter
