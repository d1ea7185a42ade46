import Worksheet.Address.Column

/-!
# Cell References

The address of one cell, and its notation.

A reference is written as column letters and a row number, `B12`. Rows count
from one in the notation and from zero everywhere else, so row zero has no
cell and no reference spells it. Letters may be of either case and the number
may have zeros in front; writing a reference back gives the one canonical
spelling. The last row and the last column of the grid have no number that fits,
so what is written for a cell of theirs is not read back.

References are ordered by row first, which is the order in which a range is
read.

## Main definitions

* `CellRef`: A row and a column.
* `CellRef.toText`: The canonical spelling.
* `CellRef.ofText?`: The cell that a text spells.
* `CellRef.move?`: The cell a displacement away, when it is on the grid.
* `Displacement`: A signed number of columns and rows.
-/

namespace Worksheet

/-- The address of a cell, counted from zero. -/
structure CellRef where
  row : Nat
  col : Nat
  deriving DecidableEq, Hashable, Repr, Inhabited

/-- A signed number of columns and rows to move by. -/
structure Displacement where
  cols : Int
  rows : Int
  deriving DecidableEq, Repr

namespace Address

/-- An index moved by a signed amount, when the result is on the grid. -/
def moveIndex? (i : Nat) (d : Int) : Option Nat :=
  let j := (i : Int) + d
  if 0 ≤ j ∧ j < gridLimit then some j.toNat else none

end Address

namespace CellRef

/-- The cell in the top-left corner of the grid. -/
def origin : CellRef := ⟨0, 0⟩

/-- The canonical spelling as characters. In the last row and the last column of
    the grid it is no reference. -/
def toChars (r : CellRef) : List Char :=
  Address.columnLetters r.col ++ Nat.toDigits 10 (Address.next r.row)

/-- The canonical spelling: capital letters, then the row counted from one. -/
def toText (r : CellRef) : String :=
  String.ofList r.toChars

/-- The cell that letters followed by digits spell. -/
def ofChars? (cs : List Char) : Option CellRef :=
  let letters := cs.takeWhile fun c => !Text.isDigit c
  let digits := cs.dropWhile fun c => !Text.isDigit c
  match Address.columnOf? letters with
  | none => none
  | some col =>
    let n := Nat.ofDigitChars 10 digits 0
    if digits ≠ [] ∧ digits.all Text.isDigit ∧ n < Address.gridLimit ∧ n ≠ 0 then
      some ⟨n - 1, col⟩
    else none

/-- The cell that a text spells. -/
def ofText? (s : String) : Option CellRef :=
  ofChars? s.toList

/-- The cell a displacement away, or `none` when that leaves the grid. -/
def move? (r : CellRef) (d : Displacement) : Option CellRef :=
  match Address.moveIndex? r.col d.cols, Address.moveIndex? r.row d.rows with
  | some col, some row => some ⟨row, col⟩
  | _, _ => none

/-- Row by row, and within a row from left to right. -/
def le (a b : CellRef) : Bool :=
  a.row < b.row || (a.row == b.row && a.col ≤ b.col)

end CellRef

end Worksheet
