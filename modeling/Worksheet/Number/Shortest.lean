import Worksheet.Number.Parts

/-!
# Shortest Decimal Digits

The fewest decimal digits that name a double.

A decimal names a double when the double is the nearest one to it. Those
decimals form an interval around the value, reaching half way to each
neighbour, ends included exactly when the mantissa is even. Decimal grids are
tried from the coarsest to the finest. If any point of a grid lies in the
interval, one of the two grid points next to the value does, so testing those
two is enough, and the first grid with a hit has the fewest digits. Of two
hits the nearer one is taken. Which way an exact tie goes is up to the notation
that is written, so it is an argument.

Everything is a comparison of whole numbers over one denominator.

## Main definitions

* `Tie`: The ways a tie can go.
* `Interval`: The value and the two ends of its interval, over a denominator.
* `shortest`: The digits, as a whole number and a power of ten.
* `positional`: Digits written out around a decimal point.
* `plain`: The shortest digits, always written out in full.
-/

namespace Worksheet

namespace Number

/-- Which of two equally near neighbours is taken. -/
inductive Tie where
  /-- The one whose last digit is even. -/
  | even
  /-- The greater one. -/
  | up
  deriving DecidableEq, Repr

/-- Does a tie go to the neighbour below, which is `below` units large? -/
def Tie.takesBelow (tie : Tie) (below : Nat) : Bool :=
  match tie with
  | .even => below % 2 == 0
  | .up => false

/-- A value with the two ends of the interval of decimals that name it, as
    numerators over one denominator. -/
structure Interval where
  value : Nat
  low : Nat
  high : Nat
  denominator : Nat
  /-- Do the two ends themselves name the value? -/
  closed : Bool

/-- The interval of `mantissa * 2 ^ exponent`. At a power of two the gap below
    is half the gap above, except at the bottom of the range. -/
def Interval.ofParts (mantissa : Nat) (exponent : Int) : Interval :=
  let up := Nat.pow 2 exponent.toNat
  let below := if mantissa = leadingBit ∧ -1074 < exponent then 1 else 2
  { value := 4 * mantissa * up
    low := 4 * mantissa * up - below * up
    high := 4 * mantissa * up + 2 * up
    denominator := 4 * Nat.pow 2 (-exponent).toNat
    closed := mantissa % 2 == 0 }

/-- The interval measured in units of `10 ^ unit`. -/
def Interval.scale (i : Interval) (unit : Int) : Interval :=
  if 0 ≤ unit then { i with denominator := i.denominator * Nat.pow 10 unit.toNat }
  else
    let p := Nat.pow 10 (-unit).toNat
    { i with value := i.value * p, low := i.low * p, high := i.high * p }

/-- The grid point to take for an interval measured in grid units, if one of
    the two next to the value names it. -/
def Interval.pick? (tie : Tie) (i : Interval) : Option Nat :=
  let below := i.value / i.denominator
  let above := below + 1
  let belowIn :=
    i.low < below * i.denominator || (i.closed && i.low == below * i.denominator)
  let aboveIn :=
    above * i.denominator < i.high || (i.closed && above * i.denominator == i.high)
  let toBelow := i.value - below * i.denominator
  let toAbove := above * i.denominator - i.value
  -- Of two hits the nearer one, and of two equally near ones as the tie goes.
  if belowIn && aboveIn then
    some (if toBelow < toAbove || (toBelow == toAbove && tie.takesBelow below) then below
      else above)
  else if belowIn then some below
  else if aboveIn then some above
  else none

/-- The power of ten of the leading digit of `num / den`, for a positive
    quotient: an estimate from the binary lengths, put right by comparing. -/
def leadingPower (num den : Nat) : Int :=
  let estimate := Int.fdiv (((num.log2 : Int) - den.log2) * 30103) 100000
  let atLeast (k : Int) : Bool :=
    if 0 ≤ k then den * Nat.pow 10 k.toNat ≤ num else den ≤ num * Nat.pow 10 (-k).toNat
  if atLeast (estimate + 1) then estimate + 1
  else if atLeast estimate then estimate
  else estimate - 1

/-- Take the zeros off the end of a decimal. The first argument bounds the
    number of zeros. -/
def dropZeros : Nat → Nat → Int → Nat × Int
  | 0, digits, power => (digits, power)
  | fuel + 1, digits, power =>
    if digits % 10 = 0 && digits != 0 then dropZeros fuel (digits / 10) (power + 1)
    else (digits, power)

/-- Try grids of `count`, `count + 1`, … digits; `left` of them remain. -/
def shortestFrom (tie : Tie) (i : Interval) (lead : Int) : Nat → Nat → Nat × Int
  | 0, _ => (i.value / i.denominator, 0)
  | left + 1, count =>
    let unit := lead - count + 1
    match (i.scale unit).pick? tie with
    | some digits => dropZeros 20 digits unit
    | none => shortestFrom tie i lead left (count + 1)

/-- The shortest digits of `mantissa * 2 ^ exponent`: `(d, p)` stands for
    `d * 10 ^ p`. Seventeen digits always suffice for a double. -/
def shortest (tie : Tie) (mantissa : Nat) (exponent : Int) : Nat × Int :=
  if mantissa = 0 then (0, 0)
  else
    let i := Interval.ofParts mantissa exponent
    shortestFrom tie i (leadingPower i.value i.denominator) 18 1

/-- The digits `ds` times `10 ^ power`, written out around a point. A whole
    number gets `tail` after its last digit. -/
def positional (ds : List Char) (power : Int) (tail : List Char) : List Char :=
  let point := (ds.length : Int) + power
  if 0 ≤ power then ds ++ List.replicate power.toNat '0' ++ tail
  else if 0 < point then ds.take point.toNat ++ '.' :: ds.drop point.toNat
  else ['0', '.'] ++ List.replicate (-point).toNat '0' ++ ds

/-- The shortest digits of a double, written out in full whatever its size. A
    tie goes up. -/
def plain (x : Float) : List Char :=
  match parts x with
  | .notANumber => ['N', 'a', 'N']
  | .infinite s => (if s then ['-'] else []) ++ ['i', 'n', 'f']
  | .finite s m e =>
    let d := shortest .up m e
    (if s then ['-'] else []) ++ positional (Nat.toDigits 10 d.1) d.2 []

end Number

end Worksheet
