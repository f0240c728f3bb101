import SqlFilter.Json.Document

set_option relaxedAutoImplicit false
set_option autoImplicit false

/-!
# Reading JSON

The reader turns a text into a document. It is strict: blanks are space, tab, line feed and carriage
return; a number has no leading zero and digits on both sides of its point; a string holds no raw
control character; nothing follows the document but blanks.

Every step hands back the characters that follow. The nesting of a document is not bounded here.

## Main definitions

* `Json.readString` — the rest of a string, with its surrogate escapes paired.
* `Json.readLiteral` — the parts of a number.
* `Json.Document.read` — the document of a text.
-/

namespace SqlFilter.Json

/-! ## Blanks and strings -/

/-- The blanks between the tokens of a JSON text. -/
def isSpace (c : Char) : Bool := c = ' ' || c = '\t' || c = '\n' || c = '\r'

/-- The characters from the first one that is no blank. -/
def skipSpace (cs : List Char) : List Char := cs.dropWhile isSpace

/-- A piece of a string: a character, or a 16-bit unit given by its number. -/
inductive Piece where
  | char (c : Char)
  | unit (n : Nat)

/-- The value of a hexadecimal digit of either case. -/
def hexValue? (c : Char) : Option Nat :=
  if '0' ≤ c ∧ c ≤ '9' then some (c.toNat - '0'.toNat)
  else if 'a' ≤ c ∧ c ≤ 'f' then some (c.toNat - 'a'.toNat + 10)
  else if 'A' ≤ c ∧ c ≤ 'F' then some (c.toNat - 'A'.toNat + 10)
  else none

/-- The number given by four hexadecimal digits. -/
def unitValue? (a b c d : Char) : Option Nat := do
  let a ← hexValue? a
  let b ← hexValue? b
  let c ← hexValue? c
  let d ← hexValue? d
  return ((a * 16 + b) * 16 + c) * 16 + d

/-- The character that a backslash and a single character stand for. -/
def unescape? : Char → Option Char
  | '"' => some '"'
  | '\\' => some '\\'
  | '/' => some '/'
  | 'b' => some '\x08'
  | 'f' => some '\x0c'
  | 'n' => some '\n'
  | 'r' => some '\r'
  | 't' => some '\t'
  | _ => none

/-- The pieces of a string up to its closing quotation mark, in reverse after those already read. -/
def readPieces (read : List Piece) : List Char → Option (List Piece × List Char)
  | [] => none
  | '"' :: rest => some (read.reverse, rest)
  | '\\' :: 'u' :: a :: b :: c :: d :: rest =>
    match unitValue? a b c d with
    | none => none
    | some n => readPieces (.unit n :: read) rest
  | '\\' :: c :: rest =>
    match unescape? c with
    | none => none
    | some c => readPieces (.char c :: read) rest
  | c :: rest =>
    if c.toNat < 0x20 ∨ c = '\\' then none else readPieces (.char c :: read) rest

/-- The characters that pieces stand for. A high surrogate has to be followed at once by a low one,
and a low one has to follow a high one. -/
def joinPieces (joined : List Char) : List Piece → Option (List Char)
  | [] => some joined.reverse
  | .char c :: rest => joinPieces (c :: joined) rest
  | .unit n :: rest =>
    if 0xd800 ≤ n ∧ n < 0xdc00 then
      match rest with
      | .unit m :: rest =>
        if 0xdc00 ≤ m ∧ m < 0xe000 then
          joinPieces (Char.ofNat (0x10000 + (n - 0xd800) * 0x400 + (m - 0xdc00)) :: joined) rest
        else none
      | _ => none
    else if 0xdc00 ≤ n ∧ n < 0xe000 then none
    else joinPieces (Char.ofNat n :: joined) rest

/-- The rest of a string after its opening quotation mark. The string itself is absent when its
surrogates do not pair. -/
def readString (cs : List Char) : Option (Option String × List Char) :=
  (readPieces [] cs).map fun (pieces, rest) => ((joinPieces [] pieces).map String.ofList, rest)

/-! ## Numbers -/

/-- The value of a decimal digit. -/
def digitValue (c : Char) : Nat := c.toNat - '0'.toNat

/-- The digits at the start of a text, and what follows. -/
def readDigits (cs : List Char) : List Nat × List Char :=
  ((cs.takeWhile Char.isDigit).map digitValue, cs.dropWhile Char.isDigit)

/-- The digits after a point, of which there has to be one; without a point there are none. -/
def readFraction : List Char → Option (List Nat × List Char)
  | '.' :: cs =>
    let (digits, rest) := readDigits cs
    if digits.isEmpty then none else some (digits, rest)
  | cs => some ([], cs)

/-- The number with the given decimal digits. -/
def ofDigits (digits : List Nat) : Nat := digits.foldl (fun n d => 10 * n + d) 0

/-- The digits of an exponent, of which there has to be one. -/
def readPower (negative : Bool) (cs : List Char) : Option (Option Int × List Char) :=
  let (digits, rest) := readDigits cs
  if digits.isEmpty then none
  else some (some (if negative then -(ofDigits digits : Int) else ofDigits digits), rest)

/-- The exponent, if there is one. -/
def readExponent : List Char → Option (Option Int × List Char)
  | 'e' :: '-' :: cs | 'E' :: '-' :: cs => readPower true cs
  | 'e' :: '+' :: cs | 'E' :: '+' :: cs => readPower false cs
  | 'e' :: cs | 'E' :: cs => readPower false cs
  | cs => some (none, cs)

/-- The digits before the point: at least one, and no leading zero. -/
def readWhole (cs : List Char) : Option (List Nat × List Char) :=
  match readDigits cs with
  | ([], _) => none
  | (0 :: _ :: _, _) => none
  | (digits, rest) => some (digits, rest)

/-- The parts of a number without its sign. -/
def readUnsigned (negative : Bool) (cs : List Char) : Option (Literal × List Char) := do
  let (whole, cs) ← readWhole cs
  let (fraction, cs) ← readFraction cs
  let (exponent, cs) ← readExponent cs
  return (⟨negative, whole, fraction, exponent⟩, cs)

/-- The parts of a number. -/
def readLiteral : List Char → Option (Literal × List Char)
  | '-' :: cs => readUnsigned true cs
  | cs => readUnsigned false cs

/-! ## Documents -/

namespace Document

mutual

/-- Reads one document. The first argument bounds the number of steps; the length of the text is
always enough, because an array or object also has a character that closes it. -/
def readValue : Nat → List Char → Option (Document × List Char)
  | 0, _ => none
  | steps + 1, cs =>
    match skipSpace cs with
    | 'n' :: 'u' :: 'l' :: 'l' :: rest => some (.null, rest)
    | 't' :: 'r' :: 'u' :: 'e' :: rest => some (.bool true, rest)
    | 'f' :: 'a' :: 'l' :: 's' :: 'e' :: rest => some (.bool false, rest)
    | '"' :: rest =>
      match readString rest with
      | none => none
      | some (s, rest) => some (.str s, rest)
    | '[' :: rest =>
      match skipSpace rest with
      | ']' :: rest => some (.arr [], rest)
      | _ => readItems steps [] rest
    | '\x7b' :: rest =>
      match skipSpace rest with
      | '\x7d' :: rest => some (.obj [], rest)
      | _ => readMembers steps [] rest
    | cs =>
      match readLiteral cs with
      | none => none
      | some (l, rest) => some (.num l.value?, rest)

/-- Reads the items of an array up to its bracket, in reverse after those already read. -/
def readItems : Nat → List Document → List Char → Option (Document × List Char)
  | 0, _, _ => none
  | steps + 1, read, cs =>
    match readValue steps cs with
    | none => none
    | some (d, rest) =>
      match skipSpace rest with
      | ',' :: rest => readItems steps (d :: read) rest
      | ']' :: rest => some (.arr (d :: read).reverse, rest)
      | _ => none

/-- Reads the members of an object up to its brace, in reverse after those already read. -/
def readMembers : Nat → List (Option String × Document) → List Char → Option (Document × List Char)
  | 0, _, _ => none
  | steps + 1, read, cs =>
    match skipSpace cs with
    | '"' :: rest =>
      match readString rest with
      | none => none
      | some (name, rest) =>
        match skipSpace rest with
        | ':' :: rest =>
          match readValue steps rest with
          | none => none
          | some (d, rest) =>
            match skipSpace rest with
            | ',' :: rest => readMembers steps ((name, d) :: read) rest
            | '\x7d' :: rest => some (.obj ((name, d) :: read).reverse, rest)
            | _ => none
        | _ => none
    | _ => none

end

/-- The document of a text, with nothing but blanks around it. -/
def read (text : String) : Option Document :=
  let cs := text.toList
  match readValue (cs.length + 1) cs with
  | none => none
  | some (d, rest) => if (skipSpace rest).isEmpty then some d else none

end Document

end SqlFilter.Json
