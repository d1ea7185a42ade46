import Worksheet.Number.Parts

/-!
# Decimals with a Fixed Number of Places

Writing a double with a given number of decimal places.

The value is scaled by a power of ten and rounded once, exactly, with a tie
going to the even neighbour. Rounding once is what makes the text a function
of the value alone: scaling in floating point first would move some values
across a tie.

## Main definitions

* `roundEven`: A quotient rounded to the nearest whole number, ties to even.
* `scaled`: A finite value times a power of ten, rounded.
* `fixed`: The text with a fixed number of places.
-/

namespace Worksheet

namespace Number

/-- `num / den` rounded to the nearest whole number; a tie goes to the even
    neighbour. -/
def roundEven (num den : Nat) : Nat :=
  let q := num / den
  let r := num % den
  if 2 * r < den then q
  else if den < 2 * r then q + 1
  else q + q % 2

/-- `mantissa * 2 ^ exponent * 10 ^ places`, rounded. -/
def scaled (places mantissa : Nat) (exponent : Int) : Nat :=
  if 0 ≤ exponent then mantissa * Nat.pow 10 places * Nat.pow 2 exponent.toNat
  else roundEven (mantissa * Nat.pow 10 places) (Nat.pow 2 (-exponent).toNat)

/-- Decimal digits with zeros in front up to the given width. -/
def padded (width n : Nat) : List Char :=
  let ds := Nat.toDigits 10 n
  List.replicate (width - ds.length) '0' ++ ds

/-- The text of a double with `places` decimal places. The sign of a value
    that rounds to zero is kept. -/
def fixed (places : Nat) (x : Float) : List Char :=
  match parts x with
  | .notANumber => ['N', 'a', 'N']
  | .infinite s => (if s then ['-'] else []) ++ ['i', 'n', 'f']
  | .finite s m e =>
    let ds := padded (places + 1) (scaled places m e)
    let point := ds.length - places
    (if s then ['-'] else []) ++ ds.take point ++ '.' :: ds.drop point

end Number

end Worksheet
