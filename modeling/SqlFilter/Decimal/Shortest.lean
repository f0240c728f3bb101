set_option relaxedAutoImplicit false
set_option autoImplicit false

/-!
# Shortest decimals of binary floating point numbers

A positive double is `m · 2^q`. The reals that round to it form an interval around it, whose ends
belong to it when `m` is even. Among the decimals in that interval the shortest is written: the one
on the coarsest grid of powers of ten, and of two such decimals the nearer one.

All numbers involved are integral multiples of one power of ten with an exponent of at most zero, so
the search is exact arithmetic on natural numbers.

## Main definitions

* `Decimal.Binary` — a positive binary number with the width of the gap below it.
* `Decimal.Binary.shortest` — significand and exponent of its shortest decimal.
-/

namespace SqlFilter.Decimal

/-- A positive number `mantissa · 2^exponent`. Its upper neighbour is one unit away; its lower one
is half a unit away where `narrow` holds, that is, at a power of two. -/
structure Binary where
  mantissa : Nat
  exponent : Int
  narrow : Bool

namespace Binary

/-- The finite positive double with the given bits of exponent and fraction. -/
def ofFields (biased fraction : Nat) : Binary :=
  if biased = 0 then ⟨fraction, -1074, false⟩
  else ⟨0x10000000000000 + fraction, (biased : Int) - 1075, fraction = 0 && biased ≠ 1⟩

/-- The exponent of the common grid: all quarter units are multiples of ten to this power. -/
def gridExponent (b : Binary) : Int := min (b.exponent - 2) 0

/-- A quarter of a unit in the last binary place, counted in steps of the common grid. -/
def quarter (b : Binary) : Nat :=
  if 2 ≤ b.exponent then Nat.pow 2 (b.exponent - 2).toNat else Nat.pow 5 (2 - b.exponent).toNat

/-- The number itself, counted in steps of the common grid. -/
def steps (b : Binary) : Nat := 4 * b.mantissa * b.quarter

/-- The lower end of the rounding interval, counted in steps of the common grid. -/
def lower (b : Binary) : Nat := (4 * b.mantissa - if b.narrow then 1 else 2) * b.quarter

/-- The upper end of the rounding interval, counted in steps of the common grid. -/
def upper (b : Binary) : Nat := (4 * b.mantissa + 2) * b.quarter

/-- A point of the common grid rounds to the number: it lies between the ends, which count when
the mantissa is even. -/
def rounds (b : Binary) (n : Nat) : Bool :=
  if b.mantissa % 2 = 0 then b.lower ≤ n && n ≤ b.upper else b.lower < n && n < b.upper

/-- The multiple of `10^j` that stands for the number, if one of its two neighbours on that grid
rounds to it. Of two that do, the nearer one is taken, and the even one at equal distance. -/
def onGrid (b : Binary) (j : Nat) : Option Nat :=
  let step := Nat.pow 10 j
  let below := b.steps / step
  let gapBelow := b.steps - below * step
  let gapAbove := (below + 1) * step - b.steps
  match b.rounds (below * step), b.rounds ((below + 1) * step) with
  | true, true =>
    if gapBelow < gapAbove || (gapBelow = gapAbove && below % 2 = 0) then some below
    else some (below + 1)
  | true, false => some below
  | false, true => some (below + 1)
  | false, false => none

/-- The first hit on the grids `10^j`, `10^(j-1)`, and so on. -/
def search (b : Binary) : Nat → Nat × Nat
  | 0 => (b.steps, 0)
  | j + 1 =>
    match b.onGrid (j + 1) with
    | some n => (n, j + 1)
    | none => b.search j

/-- Significand and exponent of ten of the shortest decimal that rounds to the number. -/
def shortest (b : Binary) : Nat × Int :=
  let (n, j) := b.search (Nat.toDigits 10 b.steps).length
  (n, b.gridExponent + j)

end Binary

end SqlFilter.Decimal
