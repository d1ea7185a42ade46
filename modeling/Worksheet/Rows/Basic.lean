import Worksheet.Cell

/-!
# Rows

The rows of a sheet and the cells in them.

Only rows and cells that were touched are stored. A row that is not stored
has the default height, is visible and holds nothing, so every question about
a row or a cell has an answer wherever it is asked. The default height
belongs to the sheet and is passed in.

A locked cell keeps its text when text is typed into it and keeps everything
when it is cleared. Copying onto it is a different matter, and does replace
it.

## Main definitions

* `Row`, `Rows`: The store.
* `cell?`, `content`, `span`: Reading a cell.
* `setCell`, `setText`, `clearCell`, `clearCells`: Changing cells.
* `height`, `isHidden`, `sumHeights`, `unhide`: Rows as lines on the screen.
* `maxCell`, `cells`: Everything that is stored.
* `Rows.ofJson?`, `Rows.toJson`: The store and its tree.
-/

namespace Worksheet

/-- A stored row. -/
structure Row where
  cells : SparseMap Cell := .empty
  height : Option Float := none
  hidden : Bool := false
  style : Option Nat := none
  deriving DecidableEq

/-- The rows of a sheet. -/
structure Rows where
  /-- The number of rows the sheet shows. -/
  len : Nat
  rows : SparseMap Row := .empty
  deriving DecidableEq

/-- The sum of `f` over `count` indices from `lo` on, added in that order. -/
def sumFrom (f : Nat → Float) (lo count : Nat) : Float :=
  (List.range' lo count).foldl (fun acc i => acc + f i) 0.0

/-- The indices from `index` down whose neighbour before them is hidden: the
    hidden run that ends just before `index`. -/
def hiddenRun (hidden : Nat → Bool) : Nat → List Nat
  | 0 => []
  | i + 1 => if hidden i then i :: hiddenRun hidden i else []

namespace Rows

/-- A row, as stored. -/
def row? (s : Rows) (i : Nat) : Option Row := s.rows.get? i

/-- Change a row, which is stored from then on. -/
def editRow (s : Rows) (i : Nat) (edit : Row → Row) : Rows :=
  { s with rows := s.rows.update i fun r => edit (r.getD {}) }

/-- The height a row is shown with; nothing is seen of a hidden row. -/
def height (defaultHeight : Float) (s : Rows) (i : Nat) : Float :=
  match s.row? i with
  | some r => if r.hidden then 0.0 else r.height.getD defaultHeight
  | none => defaultHeight

/-- Give a row a height of its own. -/
def setHeight (s : Rows) (i : Nat) (h : Float) : Rows :=
  s.editRow i fun r => { r with height := some h }

/-- Is the row hidden by hand? -/
def isHidden (s : Rows) (i : Nat) : Bool :=
  (s.row? i).any Row.hidden

/-- Hide or show a row. -/
def setHidden (s : Rows) (i : Nat) (hidden : Bool) : Rows :=
  s.editRow i fun r => { r with hidden }

/-- Show the run of hidden rows that ends just before `i`. -/
def unhide (s : Rows) (i : Nat) : Rows :=
  (hiddenRun s.isHidden i).foldl (fun s j => s.setHidden j false) s

/-- Give a row a style. -/
def setStyle (s : Rows) (i style : Nat) : Rows :=
  s.editRow i fun r => { r with style := some style }

/-- The heights of the rows from `lo` up to but not including `hi`, without
    those in `except`. -/
def sumHeights (defaultHeight : Float) (s : Rows) (lo hi : Nat) (except : List Nat) : Float :=
  sumFrom (fun i => if except.contains i then 0.0 else s.height defaultHeight i) lo (hi - lo)

/-- The heights of all rows. -/
def totalHeight (defaultHeight : Float) (s : Rows) : Float :=
  s.sumHeights defaultHeight 0 s.len []

/-- A cell, as stored. -/
def cell? (s : Rows) (c : CellRef) : Option Cell :=
  match s.row? c.row with
  | some r => r.cells.get? c.col
  | none => none

/-- The text of a cell, empty when there is none. -/
def content (s : Rows) (c : CellRef) : String :=
  match s.cell? c with
  | some cell => cell.content
  | none => ""

/-- The span of the merge that a cell anchors. -/
def span (s : Rows) (c : CellRef) : Span :=
  match s.cell? c with
  | some cell => cell.span
  | none => .zero

/-- Store what `edit` makes of the cell at a place, present or not. -/
def updateCell (s : Rows) (c : CellRef) (edit : Option Cell → Cell) : Rows :=
  s.editRow c.row fun r => { r with cells := r.cells.update c.col edit }

/-- Change a cell, which is stored from then on. -/
def editCell (s : Rows) (c : CellRef) (edit : Cell → Cell) : Rows :=
  s.updateCell c fun cell => edit (cell.getD {})

/-- Change a cell if it is stored. -/
def modifyCell (s : Rows) (c : CellRef) (edit : Cell → Cell) : Rows :=
  { s with rows := s.rows.modify c.row fun r => { r with cells := r.cells.modify c.col edit } }

/-- Copy a cell to a place. -/
def setCell (s : Rows) (c : CellRef) (cell : Cell) (mode : CopyMode) : Rows :=
  s.updateCell c (Cell.receive mode cell)

/-- Type a text into a cell. A locked cell keeps its own. -/
def setText (s : Rows) (c : CellRef) (text : String) : Rows :=
  s.editCell c fun cell => if cell.editable then { cell with text := some text } else cell

/-- Clear part of a cell. A locked cell stays as it is. -/
def clearCell (s : Rows) (mode : ClearMode) (c : CellRef) : Rows :=
  match s.cell? c with
  | some cell =>
    if cell.editable then
      match cell.clear mode with
      | some cell => s.editCell c fun _ => cell
      | none => s.editRow c.row fun r => { r with cells := r.cells.erase c.col }
    else s
  | none => s

/-- Clear part of every cell of a range. -/
def clearCells (s : Rows) (mode : ClearMode) (r : Range) : Rows :=
  r.cells.foldl (fun s c => s.clearCell mode c) s

/-- The last row and the last column that hold a cell. -/
def maxCell (s : Rows) : CellRef :=
  s.rows.entries.foldl (fun m e => match e.2.cells.last? with
    | some last => ⟨max m.row e.1, max m.col last.1⟩
    | none => m) .origin

/-- Every stored cell, row by row. -/
def cells (s : Rows) : List (CellRef × Cell) :=
  s.rows.entries.flatMap fun e => e.2.cells.entries.map fun f => (⟨e.1, f.1⟩, f.2)

/-- Change every stored cell, knowing where it is. -/
def mapCells (f : CellRef → Cell → Cell) (s : Rows) : Rows :=
  { s with rows := s.rows.mapValues fun i r =>
      { r with cells := r.cells.mapValues fun j cell => f ⟨i, j⟩ cell } }

end Rows

open Json

/-- Read a row. -/
def Row.ofJson? (form : Form) (j : Json) : Option Row := do
  let fields ← record? form ["cells", "height", "hidden", "style"] j
  return { cells := ← withDefault? (indexMap? (Cell.ofJson? form)) .empty (find? "cells" fields)
           height := ← optional? float? (find? "height" fields)
           hidden := ← withDefault? bool? false (find? "hidden" fields)
           style := ← optional? index? (find? "style" fields) }

/-- The tree of a row. -/
def Row.toJson (r : Row) : Json :=
  .object ((if r.cells.isEmpty then [] else [("cells", ofIndexMap Cell.toJson r.cells)]) ++
    fieldIf "height" (r.height.map .float) ++
    fieldWhen "hidden" r.hidden ++
    fieldIf "style" (r.style.map ofIndex))

/-- Read the rows of a sheet. -/
def Rows.ofJson? (form : Form) (j : Json) : Option Rows := do
  let fields ← record? form ["len", "rows"] j
  return { len := ← required? index? (find? "len" fields)
           rows := ← withDefault? (indexMap? (Row.ofJson? form)) .empty (find? "rows" fields) }

/-- The tree of the rows of a sheet. -/
def Rows.toJson (s : Rows) : Json :=
  .object [("len", ofIndex s.len), ("rows", ofIndexMap Row.toJson s.rows)]

end Worksheet
