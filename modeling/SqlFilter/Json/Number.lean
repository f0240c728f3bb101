import SqlFilter.Decimal.Shortest

set_option relaxedAutoImplicit false
set_option autoImplicit false

/-!
# Numbers of a JSON text

A number is an integer or a double. An integer literal that fits 64 bits, signed or unsigned, is an
integer; every other literal is a double: one with a fraction or an exponent, one out of range, and
minus zero.

A double is computed from at most 64 bits of the literal's digits: the leading digits that fit form
the significand, the others only count towards the exponent. The significand is then multiplied or
divided once by a power of ten; where the power is below the least one a double can hold, by
`10^308` first. A literal that overflows has no value.

## Main definitions

* `Json.Number` — the values.
* `Json.Literal` — the parts of a literal, with `Literal.value?`.
* `Json.Number.chars` — the text of a number.
-/

namespace SqlFilter.Json

/-- An integer or a double. -/
inductive Number where
  | int (value : Int)
  | double (value : Float)
deriving DecidableEq, Inhabited

/-! ## The value of a literal -/

/-- The parts of a number literal: its sign, the digits before and after the point, and the exponent
if there is one. There is a point exactly when there are digits after it. -/
structure Literal where
  negative : Bool
  whole : List Nat
  fraction : List Nat
  exponent : Option Int

namespace Literal

/-- Appends digits to a significand as long as it fits 64 bits, and hands back those that did not. -/
def absorb (significand : Nat) : List Nat → Nat × List Nat
  | [] => (significand, [])
  | d :: ds => if 10 * significand + d < 0x10000000000000000 then absorb (10 * significand + d) ds
    else (significand, d :: ds)

/-- Ten to a power, as a double. -/
def tenTo (n : Nat) : Float := Float.ofScientific 1 false n

/-- A double times a power of ten. Powers below `10^(-308)` are reached by dividing by `10^308` until
the rest is in range or nothing is left. There is no value when the result is too large. -/
def scale (f : Float) (exponent : Int) : Option Float :=
  if exponent.natAbs ≤ 308 then
    if 0 ≤ exponent then
      let scaled := f * tenTo exponent.natAbs
      if scaled.isInf then none else some scaled
    else some (f / tenTo exponent.natAbs)
  else if f == 0 then some f
  else if 0 ≤ exponent then none
  else scale (f / tenTo 308) (exponent + 308)
termination_by exponent.natAbs
decreasing_by omega

/-- An integer literal: an integer if it fits 64 bits, and a double for minus zero and for a negative
number below `-2^63`. -/
def integer (negative : Bool) (significand : Nat) : Number :=
  if negative then
    if significand = 0 ∨ 0x8000000000000000 < significand then
      .double (-Float.ofScientific significand false 0)
    else .int (-significand)
  else .int significand

/-- The value of a literal, which has none when it is too large for a double. -/
def value? (l : Literal) : Option Number :=
  let (w, dropped) := absorb 0 l.whole
  if dropped.isEmpty && l.fraction.isEmpty && l.exponent.isNone then some (integer l.negative w)
  else
    let (s, skipped) := absorb w l.fraction
    let kept := l.fraction.length - skipped.length
    let exponent := (dropped.length : Int) - kept + l.exponent.getD 0
    (scale (Float.ofScientific s false 0) exponent).map fun f =>
      .double (if l.negative then -f else f)

end Literal

/-! ## The text of a number -/

/-- The decimal digits of a natural number. -/
def decimalChars (n : Nat) : List Char := Nat.toDigits 10 n

/-- The text of an integer. -/
def integerChars (i : Int) : List Char :=
  if i < 0 then '-' :: decimalChars i.natAbs else decimalChars i.natAbs

/-- The text of a decimal `significand · 10^exponent`. With `x` the power of ten of its first digit,
it is positional for `x` between -5 and 15, always with a fraction; otherwise it has one digit before
the point, no fraction if there are no more digits, and a signed exponent. -/
def decimalText (significand : Nat) (exponent : Int) : List Char :=
  let digits := decimalChars significand
  let x := exponent + digits.length - 1
  if 0 ≤ x ∧ x < 16 then
    let whole := (x + 1).toNat
    let padded := digits ++ List.replicate (whole - digits.length) '0'
    let fraction := padded.drop whole
    padded.take whole ++ '.' :: (if fraction.isEmpty then ['0'] else fraction)
  else if -5 ≤ x ∧ x < 0 then
    '0' :: '.' :: List.replicate (-x - 1).toNat '0' ++ digits
  else
    let mark := if x < 0 then '-' else '+'
    let power := 'e' :: mark :: decimalChars x.natAbs
    match digits with
    | [] => power
    | [d] => d :: power
    | d :: ds => d :: '.' :: ds ++ power

/-- The shortest text of a finite double. Zero is written `0.0`, with its sign. -/
def doubleChars (f : Float) : List Char :=
  let bits := f.toBits.toNat
  let biased := bits / 0x10000000000000 % 0x800
  let fraction := bits % 0x10000000000000
  let text :=
    if biased = 0 ∧ fraction = 0 then ['0', '.', '0']
    else
      let (significand, exponent) := (Decimal.Binary.ofFields biased fraction).shortest
      decimalText significand exponent
  if bits / 0x8000000000000000 = 1 then '-' :: text else text

/-- The text of a number. -/
def Number.chars : Number → List Char
  | .int i => integerChars i
  | .double f => doubleChars f

end SqlFilter.Json
