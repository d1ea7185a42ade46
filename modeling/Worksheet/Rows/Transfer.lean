import Worksheet.Address.Reference
import Worksheet.Number.Notation
import Worksheet.Rows.Basic

/-!
# Copying and Moving Cells

Copies of a block of cells, moves of a block, and typed-in blocks of text.

A copy tiles its destination: whole copies of the source are laid side by
side from the destination's top-left corner until it is covered, so the last
ones may stick out. The references of a formula move along with each copy.
When a series is to be continued, the number at the end of a plain text is
advanced by the distance of the copy.

All cells are read before the first one is written, so source and destination
may overlap.

## Main definitions

* `seriesText`: A text with the number at its end advanced.
* `tileStarts`, `copies`: What a copy writes, and where.
* `copyBlock`, `moveBlock`, `typeBlock`: The three transfers.
* `footprint`: The cells that a copy may write.
-/

namespace Worksheet

/-- The digits and points at the end of a text, and what is before them. -/
def splitTail (cs : List Char) : List Char × List Char :=
  let isTail (c : Char) : Bool := c == '.' || Text.isDecimal c
  ((cs.reverse.dropWhile isTail).reverse, (cs.reverse.takeWhile isTail).reverse)

/-- Advance the number at the end of a text. A text without one stays. -/
def seriesText (delta : Int) (s : String) : String :=
  let (front, tail) := splitTail s.toList
  match Number.Literal.read? tail with
  | some l => String.ofList (front ++ (Number.toText (l.toFloat + Float.ofInt delta)).toList)
  | none => s

/-- The lines where the tiles start when `size` lines repeat from `first`
    until `last` is covered. -/
def tileStarts (first last size : Nat) : List Nat :=
  (List.range ((last - first) / size + 1)).map fun k => first + k * size

/-- The first multiple of `size` that is not below `n`. -/
def roundUp (n size : Nat) : Nat :=
  (n + size - 1) / size * size

/-- The cells that a copy of `src` at `dst` can write: whole copies of the
    source, from the destination's top-left corner until it is covered. -/
def footprint (src dst : Range) : Range :=
  Range.spanning dst.first (roundUp dst.height src.height - 1) (roundUp dst.width src.width - 1)

/-- Is `dst` entirely above or below `src`? -/
def Range.isVerticalFrom (dst src : Range) : Bool :=
  src.bottom < dst.top || dst.bottom < src.top

/-- Is `dst` entirely left or right of `src`? -/
def Range.isHorizontalFrom (dst src : Range) : Bool :=
  src.right < dst.left || dst.right < src.left

/-- Can a series be continued from `src` into `dst`? From a single cell always,
    from a row only up or down, and from a column only sideways. -/
def continuesSeries (src dst : Range) : Bool :=
  (src.height == 1 && src.width == 1) ||
    (src.height == 1 && dst.isVerticalFrom src) ||
    (src.width == 1 && dst.isHorizontalFrom src)

/-- The text of a copy made a displacement away. A formula's references move
    along, and other text is advanced when a series is continued. -/
def copiedText (series : Option Int) (d : Displacement) (s : String) : String :=
  if isFormulaText s then String.ofList (Address.shiftReferences d (fun _ => true) s.toList)
  else match series with
    | some delta => if s = "" then s else seriesText delta s
    | none => s

/-- The displacement from one cell to another, in signed numbers. -/
def CellRef.displacementTo (a b : CellRef) : Displacement :=
  ⟨Address.signed ((b.col : Int) - a.col), Address.signed ((b.row : Int) - a.row)⟩

/-- The copy of a cell made at another place. -/
def copyOf (src dst : Range) (series : Bool) (c target : CellRef) (cell : Cell) : Cell :=
  let d := c.displacementTo target
  let delta :=
    if series && continuesSeries src dst then
      some (if dst.isVerticalFrom src then d.rows else d.cols)
    else none
  { cell with text := cell.text.map (copiedText delta d) }

namespace Rows

/-- The stored cells of a range, row by row. -/
def cellsIn (s : Rows) (r : Range) : List (CellRef × Cell) :=
  (s.rows.entriesBetween r.top r.bottom).flatMap fun e =>
    (e.2.cells.entriesBetween r.left r.right).map fun f => (⟨e.1, f.1⟩, f.2)

/-- Everything that a copy writes, in the order it is written. -/
def copies (s : Rows) (src dst : Range) (series : Bool) : List (CellRef × Cell) :=
  (s.cellsIn src).flatMap fun (c, cell) =>
    (tileStarts dst.top dst.bottom src.height).flatMap fun top =>
      (tileStarts dst.left dst.right src.width).map fun left =>
        let target : CellRef := ⟨top + (c.row - src.top), left + (c.col - src.left)⟩
        (target, copyOf src dst series c target cell)

/-- Write cells at their places. -/
def writeAll (s : Rows) (mode : CopyMode) (written : List (CellRef × Cell)) : Rows :=
  written.foldl (fun s w => s.setCell w.1 w.2 mode) s

/-- Copy a block, and list what was written. -/
def copyBlock (s : Rows) (src dst : Range) (mode : CopyMode) (series : Bool) :
    Rows × List (CellRef × Cell) :=
  let written := s.copies src dst series
  (s.writeAll mode written, written)

/-- Take every cell of a range out of the store. -/
def removeCells (s : Rows) (r : Range) : Rows :=
  { s with rows := s.rows.mapValues fun i row =>
      if r.top ≤ i ∧ i ≤ r.bottom then
        { row with cells := row.cells.eraseBetween r.left r.right }
      else row }

/-- Move a block so that its top-left cell lands on the destination's. The
    cells move unchanged, and overwrite what was there. A block is cut off before
    the column after it, so nothing is moved out of one that reaches the last. -/
def moveBlock (s : Rows) (src dst : Range) : Rows :=
  if Address.next src.right = 0 then s
  else (s.cellsIn src).foldl (fun s w =>
    s.updateCell ⟨dst.top + (w.1.row - src.top), dst.left + (w.1.col - src.left)⟩ fun _ => w.2)
    (s.removeCells src)

/-- Type a line of texts into a row, from a column on. -/
def typeLine (s : Rows) (row col : Nat) : List String → Rows
  | [] => s
  | t :: ts => (s.setText ⟨row, col⟩ t).typeLine row (col + 1) ts

/-- Type lines of texts into the rows from a cell on. -/
def typeBlock (s : Rows) (c : CellRef) : List (List String) → Rows
  | [] => s
  | line :: lines => (s.typeLine c.row c.col line).typeBlock ⟨c.row + 1, c.col⟩ lines

end Rows

end Worksheet
