import Worksheet.Address.CellRef
import Worksheet.Text.Split

/-!
# Cell Ranges

Rectangles of cells.

A range is given by its four edges, all inclusive, and is never inside out:
the type carries the two inequalities, so every operation that builds a range
shows them once. A range is named by any two opposite corners, and the range
of the two corners is the smallest one holding both.

Taking one range out of another leaves at most four rectangles. They are cut
so that the bands above and below keep their full width and only the rows
that overlap are cut into a left and a right piece, so no cell is covered
twice.

## Main definitions

* `Range`: A rectangle of cells.
* `Range.between`: The smallest range holding two cells.
* `Range.mem`: Is a cell in the range?
* `Range.union`, `Range.intersects`, `Range.within`, `Range.difference`.
* `Range.cells`: Every cell, row by row.
* `Range.toText`, `Range.ofText?`: The notation.
-/

namespace Worksheet

/-- A rectangle of cells, edges included. -/
structure Range where
  top : Nat
  left : Nat
  bottom : Nat
  right : Nat
  top_le_bottom : top ≤ bottom := by omega
  left_le_right : left ≤ right := by omega
  deriving DecidableEq, Repr

namespace Range

/-- The smallest range holding two cells, in whatever order they come. -/
def between (a b : CellRef) : Range :=
  { top := min a.row b.row, left := min a.col b.col
    bottom := max a.row b.row, right := max a.col b.col }

/-- The range of one cell. -/
def single (c : CellRef) : Range :=
  { top := c.row, left := c.col, bottom := c.row, right := c.col }

/-- The range with a given top-left cell, `rows` rows and `cols` columns past
    it. -/
def spanning (c : CellRef) (rows cols : Nat) : Range :=
  { top := c.row, left := c.col, bottom := c.row + rows, right := c.col + cols }

/-- The top-left cell. -/
def first (r : Range) : CellRef := ⟨r.top, r.left⟩

/-- The bottom-right cell. -/
def last (r : Range) : CellRef := ⟨r.bottom, r.right⟩

/-- The number of rows. -/
def height (r : Range) : Nat := r.bottom - r.top + 1

/-- The number of columns. -/
def width (r : Range) : Nat := r.right - r.left + 1

/-- The number of cells. -/
def count (r : Range) : Nat := r.height * r.width

/-- The number of cells as sixty-four bits have it. -/
def tally (r : Range) : Nat := r.count % Address.gridLimit

/-- Does the range hold more than one cell? This is about the range itself, and the same
    as a tally of more than one as long as the cells can be counted. -/
def isMultiple (r : Range) : Bool := 1 < r.count

/-- Is the cell in the range? -/
def mem (r : Range) (c : CellRef) : Bool :=
  r.top ≤ c.row && c.row ≤ r.bottom && r.left ≤ c.col && c.col ≤ r.right

/-- Do the ranges share a cell? -/
def intersects (a b : Range) : Bool :=
  a.top ≤ b.bottom && b.top ≤ a.bottom && a.left ≤ b.right && b.left ≤ a.right

/-- The smallest range holding both. -/
def union (a b : Range) : Range :=
  { top := min a.top b.top, left := min a.left b.left
    bottom := max a.bottom b.bottom, right := max a.right b.right
    top_le_bottom := by have := a.top_le_bottom; omega
    left_le_right := by have := a.left_le_right; omega }

/-- Is every cell of `a` a cell of `b`? -/
def within (a b : Range) : Bool :=
  b.top ≤ a.top && a.bottom ≤ b.bottom && b.left ≤ a.left && a.right ≤ b.right

/-- The range with these edges, if they are in order. -/
def ofEdges? (top left bottom right : Nat) : Option Range :=
  if h : top ≤ bottom ∧ left ≤ right then
    some { top, left, bottom, right, top_le_bottom := h.1, left_le_right := h.2 }
  else none

/-- The cells of `a` that are not in `b`: full bands above and below the
    overlap, then what is left of it and right of it. -/
def difference (a b : Range) : List Range :=
  if a.intersects b then
    let above := if a.top < b.top then ofEdges? a.top a.left (b.top - 1) a.right else none
    let below :=
      if b.bottom < a.bottom then ofEdges? (b.bottom + 1) a.left a.bottom a.right else none
    let midTop := max a.top b.top
    let midBottom := min a.bottom b.bottom
    let before := if a.left < b.left then ofEdges? midTop a.left midBottom (b.left - 1) else none
    let after := if b.right < a.right then ofEdges? midTop (b.right + 1) midBottom a.right else none
    above.toList ++ below.toList ++ before.toList ++ after.toList
  else [a]

/-- The range moved by a displacement, when all of it stays on the grid. -/
def move? (r : Range) (d : Displacement) : Option Range :=
  match r.first.move? d, r.last.move? d with
  | some a, some b => some (between a b)
  | _, _ => none

/-- Every cell, row by row and within a row from left to right. -/
def cells (r : Range) : List CellRef :=
  (List.range' r.top r.height).flatMap fun row =>
    (List.range' r.left r.width).map fun col => ⟨row, col⟩

/-- The notation as characters. -/
def toChars (r : Range) : List Char :=
  if 1 < r.tally then r.first.toChars ++ ':' :: r.last.toChars else r.first.toChars

/-- The notation: the two corners around a colon, or the one cell, as the cells
    are counted. -/
def toText (r : Range) : String :=
  String.ofList r.toChars

/-- The range that a text spells: one reference, or two around the first
    colon. -/
def ofChars? (cs : List Char) : Option Range :=
  match Text.cutAt ':' cs with
  | some (a, b) => match CellRef.ofChars? a, CellRef.ofChars? b with
    | some a, some b => some (between a b)
    | _, _ => none
  | none => (CellRef.ofChars? cs).map single

/-- The range that a text spells. -/
def ofText? (s : String) : Option Range :=
  ofChars? s.toList

end Range

end Worksheet
