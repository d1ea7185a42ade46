import Worksheet.Sheet.Cells
import Worksheet.Sheet.Selecting

/-!
# Formatting

Changing how the selected cells look, and what may be done to them.

Cells share styles, so a style edit never changes a style. It computes the
edited style, finds or appends it in the table, and points the cell at it.

Borders are drawn cell by cell. A merge shows the border of its first cell,
so the cells it covers are skipped, and where an edge of the selection is
concerned the first cell stands for all the rows and columns it spans.

## Main definitions

* `editStyle`, `drawBorder`: The style of one cell.
* `drawBorders`: The borders of the selection.
* `insertFunction`: A function over the selection, written beside it.
* `CellEdit`, `editSelected`: Any edit of the selected cells.
-/

namespace Worksheet

/-- An edit of every selected cell. -/
inductive CellEdit where
  | style (e : StyleEdit)
  | border (mode : BorderMode) (line : LineStyle) (color : String)
  | merge (on : Bool)
  | editable (on : Bool)
  /-- Write a function of the selection beside it. -/
  | function (f : Formula.Function)
  deriving DecidableEq, Repr

namespace Sheet

/-- Point a cell at an edited copy of its style. -/
def editStyle (edit : Style → Style) (s : Sheet) (c : CellRef) : Sheet :=
  let (styles, i) := s.styles.intern (edit ((s.styleAt? c).getD .empty))
  { s with styles, rows := s.rows.editCell c fun cell => { cell with style := some i } }

/-- Draw edges over the border of a cell. -/
def drawBorder (s : Sheet) (edges : Border) (c : CellRef) : Sheet :=
  s.editStyle (fun style => style.drawBorder edges) c

/-- Take the border off a cell that has a style. -/
def eraseBorder (s : Sheet) (c : CellRef) : Sheet :=
  if ((s.cell? c).bind Cell.style).isSome then
    s.editStyle (fun style => { style with border := none }) c
  else s

/-- All four edges alike. -/
def fourEdges (e : BorderEdge) : Border :=
  { top := some e, bottom := some e, left := some e, right := some e }

/-- The edges that a cell of a range gets, where it and the merge it anchors
    span some more rows and columns. -/
def edgesFor (mode : BorderMode) (e : BorderEdge) (r : Range) (c : CellRef) (span : Span) :
    Border :=
  let draw (b : Bool) : Option BorderEdge := if b then some e else none
  let inRight := draw (c.col + span.cols < r.right)
  let inBottom := draw (c.row + span.rows < r.bottom)
  match mode with
  | .all => fourEdges e
  | .inside => { right := inRight, bottom := inBottom }
  | .horizontal => { bottom := inBottom }
  | .vertical => { right := inRight }
  | .outside =>
    { top := draw (c.row == r.top)
      bottom := draw (c.row + span.rows == r.bottom)
      left := draw (c.col == r.left)
      right := draw (c.col + span.cols == r.right) }
  | _ => .empty

/-- Draw the edges that a cell of the selection gets, unless a merge covers
    it. -/
def drawCell (mode : BorderMode) (e : BorderEdge) (r : Range) (s : Sheet) (c : CellRef) : Sheet :=
  let covered := match s.merges.firstAt? c with
    | some m => m.first != c
    | none => false
  if covered then s
  else
    let edges := edgesFor mode e r c (s.rows.span c)
    if edges.isEmpty then s else s.drawBorder edges c

/-- Draw edges along a row from a column on, up to another column. A merge is
    passed over in one step. The first argument bounds the steps. -/
def drawAlongRow (edges : Border) (row last : Nat) : Nat → Nat → Sheet → Sheet
  | 0, _, s => s
  | fuel + 1, col, s =>
    if last < col then s
    else
      let s := s.drawBorder edges ⟨row, col⟩
      s.drawAlongRow edges row last fuel (col + (s.rows.span ⟨row, col⟩).cols + 1)

/-- Draw edges along a column from a row on, up to another row. -/
def drawAlongColumn (edges : Border) (col last : Nat) : Nat → Nat → Sheet → Sheet
  | 0, _, s => s
  | fuel + 1, row, s =>
    if last < row then s
    else
      let s := s.drawBorder edges ⟨row, col⟩
      s.drawAlongColumn edges col last fuel (row + (s.rows.span ⟨row, col⟩).rows + 1)

/-- Draw the borders of a range. A selection that is one cell to the user has
    no inner edges, and its outer edges are all four. -/
def drawBorders (mode : BorderMode) (e : BorderEdge) (r : Range) (s : Sheet) : Sheet :=
  match mode with
  | .none => r.cells.foldl eraseBorder s
  | .top => s.drawAlongRow { top := some e } r.top r.right r.width r.left
  | .bottom => s.drawAlongRow { bottom := some e } r.bottom r.right r.width r.left
  | .left => s.drawAlongColumn { left := some e } r.left r.bottom r.height r.top
  | .right => s.drawAlongColumn { right := some e } r.right r.bottom r.height r.top
  | .all => r.cells.foldl (drawCell mode e r) s
  | .outside =>
    if s.isSingle then s.drawBorder (fourEdges e) r.first
    else r.cells.foldl (drawCell mode e r) s
  | .inside | .horizontal | .vertical =>
    if s.isSingle then s else r.cells.foldl (drawCell mode e r) s

/-- Write a text into a cell, locked or not. -/
def putText (s : Sheet) (c : CellRef) (text : String) : Sheet :=
  { s with rows := s.rows.editCell c fun cell => { cell with text := some text } }

/-- The formula of a function over what stands between its parentheses. -/
def functionText (f : Formula.Function) (argument : String) : String :=
  "=" ++ f.name ++ "(" ++ argument ++ ")"

/-- Write a function of a range beside it: of every column below it when there
    are several rows, of the active row right of it when there is one row, and
    without an argument when there is one cell. -/
def insertFunction (f : Formula.Function) (r : Range) (s : Sheet) : Sheet :=
  let active := s.selection.active
  let argument (a b : CellRef) : String := a.toText ++ ":" ++ b.toText
  if 1 < r.height then
    (List.range' r.left r.width).foldl (fun s col =>
      s.putText ⟨r.bottom + 1, col⟩ (functionText f (argument ⟨r.top, col⟩ ⟨r.bottom, col⟩))) s
  else if 1 < r.width then
    s.putText ⟨active.row, r.right + 1⟩
      (functionText f (argument ⟨active.row, r.left⟩ ⟨active.row, r.right⟩))
  else s.putText active (functionText f "")

/-- Lock or unlock every cell of a range. -/
def setEditable (on : Bool) (r : Range) (s : Sheet) : Sheet :=
  { s with rows := r.cells.foldl (fun rows c =>
      rows.editCell c fun cell => { cell with editable := on }) s.rows }

/-- Edit every selected cell. -/
def editSelected (s : Sheet) (e : CellEdit) : Sheet × Outcome :=
  if s.selection.range.isNone then (s, .ignored)
  else match e with
    | .merge true => s.merge
    | .merge false => s.unmerge
    | .border mode line color => s.commitOnSelection fun r => drawBorders mode ⟨line, color⟩ r
    | .function f => s.commitOnSelection (insertFunction f)
    | .style edit => s.commitOnSelection fun r s => r.cells.foldl (editStyle edit.apply) s
    | .editable on => s.commitOnSelection (setEditable on)

end Sheet

end Worksheet
