import Worksheet.Number.Fixed
import Worksheet.Number.Literal
import Worksheet.Text.Blank

/-!
# Numbers in Cells

How a cell's text becomes a number and a number becomes text.

Cell text is a number when, once trimmed, it is a decimal literal and its
value is finite. Only digits, the point, the exponent mark and signs may
occur, so words such as `inf` are text. Going back, a whole number below
`10 ^ 15` is written without a point, and anything else with at most ten
places: the zeros that ten places leave at the end are taken off.

## Main definitions

* `wholeLimit`: Where whole numbers begin to be written with ten places.
* `ofText?`: The number a cell's text spells.
* `toText`: The text of a number.
-/

namespace Worksheet

namespace Number

/-- The number a text spells, if it spells a finite one. -/
def ofText? (s : String) : Option Float :=
  match Literal.read? (Text.trimChars s.toList) with
  | some l =>
    let x := l.toFloat
    if x.isFinite then some x else none
  | none => none

/-- Take every `c` off the end. -/
def dropEnd (c : Char) (cs : List Char) : List Char :=
  (cs.reverse.dropWhile (· == c)).reverse

/-- Ten to the fifteenth: whole numbers below it are written without a point. -/
def wholeLimit : Nat := 1000000000000000

/-- Whole numbers below `wholeLimit` have no point; every other number is
    written to ten places without the zeros at the end. -/
def toText (x : Float) : String :=
  match whole? x with
  | some n =>
    if n.natAbs < wholeLimit then toString n
    else String.ofList (dropEnd '.' (dropEnd '0' (fixed 10 x)))
  | none => String.ofList (dropEnd '.' (dropEnd '0' (fixed 10 x)))

end Number

end Worksheet
