import SqlFilter.Json.Value

set_option relaxedAutoImplicit false
set_option autoImplicit false

/-!
# Printing JSON

A value has two texts: a compact one without any blank, and an indented one for the terminal. In
strings only the quotation mark, the backslash and the control characters below U+0020 are escaped.

## Main definitions

* `Json.quotedChars` — the text of a string.
* `Json.chars`, `Json.compact` — the compact text of a value.
* `Json.indentedChars`, `Json.indented` — the text with an indent of two spaces a level.
-/

namespace SqlFilter.Json

/-! ## Strings -/

/-- The lower-case hexadecimal digit of a number below 16. -/
def hexDigit (n : Nat) : Char := Nat.digitChar n

/-- The text of one character inside quotation marks. -/
def escapedChars (c : Char) : List Char :=
  if c = '"' then ['\\', '"']
  else if c = '\\' then ['\\', '\\']
  else if c = '\x08' then ['\\', 'b']
  else if c = '\t' then ['\\', 't']
  else if c = '\n' then ['\\', 'n']
  else if c = '\x0c' then ['\\', 'f']
  else if c = '\r' then ['\\', 'r']
  else if c.toNat < 0x20 then ['\\', 'u', '0', '0', hexDigit (c.toNat / 16), hexDigit (c.toNat % 16)]
  else [c]

/-- The text of a string, with its quotation marks. -/
def quotedChars (s : String) : List Char := '"' :: (s.toList.flatMap escapedChars ++ ['"'])

/-! ## Compact text -/

mutual

/-- The compact text of a value. -/
def chars : Json → List Char
  | .null => ['n', 'u', 'l', 'l']
  | .bool true => ['t', 'r', 'u', 'e']
  | .bool false => ['f', 'a', 'l', 's', 'e']
  | .num n => n.chars
  | .str s => quotedChars s
  | .arr items => '[' :: (itemChars items ++ [']'])
  | .obj members => '\x7b' :: (memberChars members ++ ['\x7d'])

/-- The items of an array, separated by commas. -/
def itemChars : List Json → List Char
  | [] => []
  | [v] => v.chars
  | v :: w :: rest => v.chars ++ ',' :: itemChars (w :: rest)

/-- The members of an object, separated by commas. -/
def memberChars : List (String × Json) → List Char
  | [] => []
  | [(k, v)] => quotedChars k ++ ':' :: v.chars
  | (k, v) :: m :: rest => quotedChars k ++ ':' :: v.chars ++ ',' :: memberChars (m :: rest)

end

/-- The compact text of a value. -/
def compact (v : Json) : String := String.ofList v.chars

/-! ## Indented text -/

/-- A new line at an indent of two spaces a level. -/
def newLine (level : Nat) : List Char := '\n' :: List.replicate (2 * level) ' '

mutual

/-- The text of a value whose first line stands at an indent of `level`. An empty array or object
takes no line of its own. -/
def indentedChars (level : Nat) : Json → List Char
  | .arr [] => ['[', ']']
  | .arr (v :: rest) =>
    '[' :: (newLine (level + 1) ++ v.indentedChars (level + 1) ++ indentedItems (level + 1) rest ++
      newLine level ++ [']'])
  | .obj [] => ['\x7b', '\x7d']
  | .obj ((k, v) :: rest) =>
    '\x7b' :: (newLine (level + 1) ++ quotedChars k ++ ':' :: ' ' :: v.indentedChars (level + 1) ++
      indentedMembers (level + 1) rest ++ newLine level ++ ['\x7d'])
  | .null => chars .null
  | .bool b => chars (.bool b)
  | .num n => n.chars
  | .str s => quotedChars s

/-- The items after the first one, each after a comma on a line of its own. -/
def indentedItems (level : Nat) : List Json → List Char
  | [] => []
  | v :: rest => ',' :: (newLine level ++ v.indentedChars level ++ indentedItems level rest)

/-- The members after the first one, each after a comma on a line of its own. -/
def indentedMembers (level : Nat) : List (String × Json) → List Char
  | [] => []
  | (k, v) :: rest =>
    ',' :: (newLine level ++ quotedChars k ++ ':' :: ' ' :: v.indentedChars level ++
      indentedMembers level rest)

end

/-- The indented text of a value. -/
def indented (v : Json) : String := String.ofList (v.indentedChars 0)

end SqlFilter.Json
