import Worksheet.Json.Tree
import Worksheet.Text.Word

/-!
# Numbers in Documents

The value of a number literal in a document.

A literal without a point or exponent is an integer when it fits 64 bits, and
any other literal is a double. A double is read in one pass with a 64-bit
significand: once a digit would overflow it, the remaining digits of the
whole part only raise the exponent and those of the fraction are dropped. The
significand is then rounded to a double and multiplied or divided once by a
power of ten. Up to fifteen digits this is the nearest double; with more it
may be off by one place, and documents are read that way.

A result beyond the range of a double has no value, while one that is too
small is zero.

## Main definitions

* `takeDigits`: Digits taken into a 64-bit significand.
* `scaleFloat?`: A significand times a power of ten.
* `ofNumber`: The value of a literal.
-/

namespace Worksheet

namespace Json

/-- Take digits into a significand for as long as it fits 64 bits. Returns the
    significand and the digits left over. -/
def takeDigits (significand : Nat) : List Char → Nat × List Char
  | [] => (significand, [])
  | c :: cs =>
    let next := significand * 10 + (c.toNat - '0'.toNat)
    if next < UInt64.size then takeDigits next cs else (significand, c :: cs)

/-- The largest power of ten that is a finite double. -/
def maxPower : Nat := 308

/-- `10 ^ e` as a double, for `e` up to `maxPower`. -/
def powerOfTen (e : Nat) : Float := Float.ofScientific 1 false e

/-- `x` divided by `10 ^ e`, in steps that are each a finite double. -/
def scaleDown (x : Float) (e : Nat) : Float :=
  if e ≤ maxPower then x / powerOfTen e
  else if x == 0.0 then x
  else scaleDown (x / powerOfTen maxPower) (e - maxPower)
termination_by e
decreasing_by simp [maxPower] at *; omega

/-- `significand * 10 ^ e` as a double, unless it is out of range. -/
def scaleFloat? (significand : Nat) (e : Int) : Option Float :=
  let x := (UInt64.ofNat significand).toFloat
  if 0 ≤ e then
    if e ≤ maxPower then
      let y := x * powerOfTen e.toNat
      if y.isInf then none else some y
    else if significand = 0 then some x
    else none
  else some (scaleDown x (-e).toNat)

/-- Give a double its sign. -/
def withSign (negative : Bool) (x : Float) : Json :=
  .float (if negative then -x else x)

/-- The value of the literal with these digits before the point, after the
    point and in the exponent. The first argument is the literal's sign and
    `exponentNegative` that of its exponent. -/
def ofNumber (negative : Bool) (whole : List Char) (fraction : Option (List Char))
    (exponentNegative : Bool) (exponent : Option (List Char)) : Json :=
  let (significand, dropped) := takeDigits 0 whole
  if fraction = none ∧ exponent = none ∧ dropped = [] then
    if negative then
      -- A negative zero, or a number below the signed range, is only a double.
      if significand = 0 ∨ UInt64.size < 2 * significand then
        withSign true (UInt64.ofNat significand).toFloat
      else .int (-(significand : Int))
    else .int significand
  else
    -- Digits before the point that found no room scale the value up, digits
    -- after it that did find room scale it down.
    let digits := fraction.getD []
    let (significand, unused) := takeDigits significand digits
    let start : Int := (dropped.length : Int) - (digits.length - unused.length : Nat)
    let power := Nat.ofDigitChars 10 (exponent.getD []) 0
    if 2 * power < UInt32.size then
      let e := if exponentNegative then start - power else start + power
      match scaleFloat? significand e with
      | some x => withSign negative x
      | none => .unreadable
    else if significand = 0 ∨ exponentNegative then withSign negative 0.0
    else .unreadable

end Json

end Worksheet
