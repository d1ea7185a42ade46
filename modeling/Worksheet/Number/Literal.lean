import Worksheet.Text.Word

/-!
# Decimal Literals

Reading a decimal with an optional point and exponent.

A literal is an optional sign, digits with at most one point among them (at
least one digit in all), and an optional exponent that has digits of its own.
Its value is the double nearest to the decimal. An exponent may have any
number of digits, so the size of the decimal is compared with the range of a
double before any power of ten is computed; beyond the range the answer is
zero or an infinity in any case.

## Main definitions

* `Literal`: A decimal taken apart, `significand * 10 ^ exponent`.
* `Literal.read?`: The literal a text spells.
* `nearest`: The double nearest to a decimal.
-/

namespace Worksheet

namespace Number

/-- The decimal `significand * 10 ^ exponent` with a sign. -/
structure Literal where
  negative : Bool
  significand : Nat
  exponent : Int
  deriving DecidableEq, Repr

/-- A leading sign and what follows it; no sign counts as plus. -/
def takeSign : List Char → Bool × List Char
  | '-' :: cs => (true, cs)
  | '+' :: cs => (false, cs)
  | cs => (false, cs)

/-- The exponent part of a literal, which is empty, or `e` or `E` with an
    optional sign and at least one digit. -/
def readExponent? : List Char → Option Int
  | [] => some 0
  | c :: cs =>
    if c = 'e' ∨ c = 'E' then
      let (negative, ds) := takeSign cs
      if ds ≠ [] ∧ ds.all Text.isDigit then
        let n : Int := Nat.ofDigitChars 10 ds 0
        some (if negative then -n else n)
      else none
    else none

/-- The literal that the whole of `cs` spells. -/
def Literal.read? (cs : List Char) : Option Literal :=
  let (negative, body) := takeSign cs
  let before := body.takeWhile Text.isDigit
  let rest := body.dropWhile Text.isDigit
  let (after, tail) := match rest with
    | '.' :: r => (r.takeWhile Text.isDigit, r.dropWhile Text.isDigit)
    | r => ([], r)
  if before = [] ∧ after = [] then none
  else (readExponent? tail).map fun e =>
    ⟨negative, Nat.ofDigitChars 10 (before ++ after) 0, e - after.length⟩

/-- The double nearest to `significand * 10 ^ exponent`. A decimal below
    `10 ^ -400` is zero and one above `10 ^ 400` infinite, so no power of ten
    is formed for them. -/
def nearest (significand : Nat) (exponent : Int) : Float :=
  if significand = 0 then 0.0
  else
    let size := ((Nat.toDigits 10 significand).length : Int) + exponent
    if size < -400 then 0.0
    else if 400 < size then 1.0 / 0.0
    else if 0 ≤ exponent then Float.ofScientific significand false exponent.toNat
    else Float.ofScientific significand true (-exponent).toNat

/-- The double nearest to a literal. -/
def Literal.toFloat (l : Literal) : Float :=
  let x := nearest l.significand l.exponent
  if l.negative then -x else x

end Number

end Worksheet
