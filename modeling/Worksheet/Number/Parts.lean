/-!
# The Parts of a Binary Number

A double is a sign, a whole mantissa and a power of two. Every question about
its exact value (is it whole, what are its decimal digits, which way does it
round) is a question about two whole numbers, and is answered here with
unbounded arithmetic rather than with more floating-point operations, each of
which would round again.

## Main definitions

* `leadingBit`: The leading one of a mantissa, which is not stored.
* `Parts`: A double taken apart.
* `parts`: Taking it apart.
* `whole?`: The integer a double is, if it is one.
* `negative`: The sign, which zero and the infinities have as well.
-/

namespace Worksheet

namespace Number

/-- The leading one of a mantissa: the bit above the fifty-two that a double
    stores. -/
def leadingBit : Nat := 0x10000000000000

/-- A double taken apart. The finite case stands for `mantissa * 2 ^ exponent`
    with the given sign. -/
inductive Parts where
  /-- The result of an operation that has no value. -/
  | notANumber
  /-- An infinity of either sign. -/
  | infinite (negative : Bool)
  /-- A finite value, zero included. -/
  | finite (negative : Bool) (mantissa : Nat) (exponent : Int)
  deriving DecidableEq, Repr

/-- Take a double apart. The eleven exponent bits are biased by 1075 once the
    mantissa is read as a whole number; a zero exponent marks the subnormal
    numbers, which lack the leading one. -/
def parts (x : Float) : Parts :=
  let bits := x.toBits.toNat
  let negative := bits / leadingBit / 2048 == 1
  let biased : Nat := bits / leadingBit % 2048
  let fraction : Nat := bits % leadingBit
  if biased = 2047 then
    if fraction = 0 then .infinite negative else .notANumber
  else if biased = 0 then .finite negative fraction (-1074)
  else .finite negative (fraction + leadingBit) ((biased : Int) - 1075)

/-- The integer a double is, if it is one. -/
def whole? (x : Float) : Option Int :=
  match parts x with
  | .finite negative m e =>
    let below : Nat := Nat.pow 2 (-e).toNat
    if m % below = 0 then
      let n : Nat := m * Nat.pow 2 e.toNat / below
      some (if negative then -(n : Int) else n)
    else none
  | _ => none

/-- The sign of a double; a value that is not a number has none. -/
def negative (x : Float) : Bool :=
  match parts x with
  | .notANumber => false
  | .infinite s => s
  | .finite s _ _ => s

end Number

end Worksheet
