import SqlFilter.Text.Alphanumeric
import SqlFilter.Text.Blank

set_option relaxedAutoImplicit false
set_option autoImplicit false

/-!
# Assignments of an environment file

An environment file has one assignment a line, such as `NAME=value` or `export NAME="a value"`.
Quotation marks of either kind hold a value together, also over the ends of lines. A backslash takes a character
literally, `$NAME` and the same with braces around the name stand for the value of a variable, and a
comment starts at a number sign.

## Main definitions

* `Assignment`, `Line` — an assignment, and what a line holds.
* `Line.split` — the lines of a text.
* `Line.read` — what a line holds.
-/

namespace SqlFilter

/-- A value given to a variable. -/
structure Assignment where
  name : String
  value : String
deriving DecidableEq

/-- What a line holds. -/
inductive Line where
  | blank
  | assignment (a : Assignment)
  | malformed
deriving DecidableEq

namespace Line

/-! ## Lines -/

/-- The quotation mark that takes all characters literally. -/
def singleMark : Char := '\x27'

/-- Where a reader stands in a line. -/
inductive Place where
  | plain
  /-- After a blank character, where a comment may start. -/
  | afterBlank
  | afterBackslash
  | inSingle
  | inSingleAfterBackslash
  | inDouble
  | inDoubleAfterBackslash
deriving DecidableEq

/-- Where a character outside quotation marks leads. -/
def Place.enter (c : Char) : Place :=
  if c = '\\' then .afterBackslash
  else if c = '"' then .inDouble
  else if c = singleMark then .inSingle
  else .plain

/-- Where a character leads, unless it starts a comment. Of several blank characters in a row, only
every other one can be followed by a comment. -/
def Place.next? : Place → Char → Option Place
  | .plain, c =>
    if Text.isBlank c && c ≠ '\n' && c ≠ '\r' then some .afterBlank else some (Place.enter c)
  | .afterBlank, c => if c = '#' then none else some (Place.enter c)
  | .afterBackslash, _ => some .plain
  | .inSingle, c =>
    if c = '\\' then some .inSingleAfterBackslash
    else if c = singleMark then some .plain
    else some .inSingle
  | .inSingleAfterBackslash, _ => some .inSingle
  | .inDouble, c =>
    if c = '\\' then some .inDoubleAfterBackslash
    else if c = '"' then some .plain
    else some .inDouble
  | .inDoubleAfterBackslash, _ => some .inDouble

/-- The characters before a comment, and the place at the end where there is no comment. -/
def scan : Place → List Char → List Char × Option Place
  | place, [] => ([], some place)
  | place, c :: rest =>
    match place.next? c with
    | none => ([], none)
    | some place => (scan place rest).map (c :: ·) id

/-- Splits a text after every line feed. -/
def splitAfterLineFeeds : List Char → List (List Char)
  | [] => []
  | c :: rest =>
    if c = '\n' then [c] :: splitAfterLineFeeds rest
    else
      match splitAfterLineFeeds rest with
      | [] => [[c]]
      | line :: lines => (c :: line) :: lines

/-- A line without the characters that end it. -/
def withoutEnd (line : List Char) : List Char :=
  match line.reverse with
  | '\n' :: '\r' :: rest => rest.reverse
  | '\n' :: rest => rest.reverse
  | _ => line

/-- Joins lines as long as the characters read end inside quotation marks. The last line is `none` when
the text ends there. -/
def join : List Char → Place → List (List Char) → List (Option (List Char))
  | _, .plain, [] => []
  | _, _, [] => [none]
  | read, place, line :: rest =>
    if ((read ++ line).dropWhile Text.isBlank).head? = some '#' then some [] :: join [] .plain rest
    else
      match scan place line with
      | (kept, none) => some (read ++ kept) :: join [] .plain rest
      | (_, some .plain) => some (withoutEnd (read ++ line)) :: join [] .plain rest
      | (_, some place) => join (read ++ line) place rest

/-- The lines of a text. A byte order mark in front does not count. -/
def split (text : String) : List (Option (List Char)) :=
  join [] .plain (splitAfterLineFeeds
    (match text.toList with
    | '\uFEFF' :: rest => rest
    | cs => cs))

/-! ## Values -/

/-- Where a reader stands in a value. Outside single quotation marks it also knows whether it is
between double ones. -/
inductive ValuePlace where
  | text (quoted : Bool)
  | afterBackslash (quoted : Bool)
  | single
  /-- In the name of a variable. -/
  | name (quoted : Bool) (read : List Char)
  /-- In the name of a variable between braces. -/
  | braced (quoted : Bool) (read : List Char)
  /-- After the value, where only a comment may follow. -/
  | ended

/-- The character that a backslash and a character stand for. -/
def unescape? (c : Char) : Option Char :=
  if c = 'n' then some '\n'
  else if ['\\', singleMark, '"', '$', ' '].contains c then some c
  else none

/-- The characters of a value from a place on, where `lookup` gives the values of variables. A name
without braces ends at the first character that is no letter and no digit, and that character is taken
literally. -/
def value? (lookup : String → String) : ValuePlace → List Char → Option (List Char)
  | .text false, [] => some []
  | .afterBackslash false, [] => some []
  | .ended, [] => some []
  | .name false read, [] => some (lookup (String.ofList read)).toList
  | _, [] => none
  | .ended, c :: rest =>
    if c = ' ' ∨ c = '\t' then value? lookup .ended rest
    else if c = '#' then some []
    else none
  | .afterBackslash quoted, c :: rest => do
    let c ← unescape? c
    return c :: (← value? lookup (.text quoted) rest)
  | .single, c :: rest =>
    if c = singleMark then value? lookup (.text false) rest
    else (value? lookup .single rest).map (c :: ·)
  | .name quoted read, c :: rest =>
    if Text.isAlphanumeric c then value? lookup (.name quoted (read ++ [c])) rest
    else if c = '\x7b' ∧ read = [] then value? lookup (.braced quoted []) rest
    else if c = '$' then
      (value? lookup (.name quoted []) rest).map ((lookup (String.ofList read)).toList ++ ·)
    else (value? lookup (.text quoted) rest).map ((lookup (String.ofList read)).toList ++ c :: ·)
  | .braced quoted read, c :: rest =>
    if c = '\x7d' then
      (value? lookup (.text quoted) rest).map ((lookup (String.ofList read)).toList ++ ·)
    else value? lookup (.braced quoted (read ++ [c])) rest
  | .text quoted, c :: rest =>
    if c = '$' then value? lookup (.name quoted []) rest
    else if c = '\\' then value? lookup (.afterBackslash quoted) rest
    else if c = '"' then value? lookup (.text !quoted) rest
    else if quoted then (value? lookup (.text quoted) rest).map (c :: ·)
    else if c = singleMark then value? lookup .single rest
    else if c = ' ' ∨ c = '\t' then value? lookup .ended rest
    else (value? lookup (.text quoted) rest).map (c :: ·)

/-! ## Reading a line -/

/-- A name of a variable starts with a letter of ASCII or an underscore. -/
def isNameStart (c : Char) : Bool := c.isAlpha || c = '_'

/-- A name of a variable goes on with letters and digits of ASCII, underscores and points. -/
def isNamePart (c : Char) : Bool := c.isAlphanum || c = '_' || c = '.'

/-- The name of a variable at the front of a text, and what follows the blanks after it. -/
def name? : List Char → Option (List Char × List Char)
  | [] => none
  | c :: rest =>
    if isNameStart c then
      some ((c :: rest).takeWhile isNamePart,
        ((c :: rest).dropWhile isNamePart).dropWhile Text.isBlank)
    else none

/-- What follows an equals sign and the blanks after it. -/
def afterEquals? : List Char → Option (List Char)
  | '=' :: rest => some (rest.dropWhile Text.isBlank)
  | _ => none

/-- The name of a variable and the text of its value. The word `export` may stand in front, and it may
also be the name. -/
def target? (cs : List Char) : Option (List Char × List Char) := do
  let (name, rest) ← name? cs
  match afterEquals? rest with
  | some value => some (name, value)
  | none =>
    if name = "export".toList then
      let (name, rest) ← name? rest
      let value ← afterEquals? rest
      some (name, value)
    else none

/-- A text without anything to read: empty, or a comment. -/
def isIdle (cs : List Char) : Bool := cs.isEmpty || cs.head? = some '#'

/-- What a line holds, where `lookup` gives the values of variables. -/
def read (lookup : String → String) (line : List Char) : Line :=
  if isIdle (Text.trimChars line) then .blank
  else
    match target? (Text.trimChars line) with
    | none => .malformed
    | some (name, text) =>
      if isIdle text then .assignment ⟨String.ofList name, ""⟩
      else
        match value? lookup (.text false) text with
        | none => .malformed
        | some value => .assignment ⟨String.ofList name, String.ofList value⟩

end Line

end SqlFilter
