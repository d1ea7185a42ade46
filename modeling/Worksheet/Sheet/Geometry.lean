import Worksheet.Sheet.State

/-!
# Geometry

Where things are on the screen, in pixels.

Rows and columns are stacked from the top-left corner. Rows that a filter
hides take no room where a range is drawn, and lines hidden by hand have no
size at all. The frozen part stays where it is, and everything else moves by
the scroll offset, which is always the edge of a line.

All of these are questions: nothing here changes what is saved.

## Main definitions

* `Rect`, `RangeRect`, `Hit`, `SizedRange`: Answers.
* `walk`: Stacking lines until a position is passed.
* `cellRect`, `rangeRect`: Where a cell or a range is.
* `hit`: What is at a point.
* `scrollX`, `scrollY`: Scrolling to an edge.
* `visibleRange`, `contentRange`, `frozenRange?`: Ranges with their sizes.
* `visitRows`, `visitColumns`: The lines of a window, one after the other.
-/

namespace Worksheet

/-- A rectangle on the screen. -/
structure Rect where
  left : Float
  top : Float
  width : Float
  height : Float

/-- The rectangle of a range: where it is seen, and where it is without
    scrolling. -/
structure RangeRect where
  left : Float
  top : Float
  width : Float
  height : Float
  unscrolledLeft : Float
  unscrolledTop : Float

/-- What is at a point. Without a row or a column, the point is on the header
    of the columns or in the gutter. -/
structure Hit where
  row : Option Nat
  col : Option Nat
  rect : Rect

/-- A range and its size on the screen. -/
structure SizedRange where
  range : Range
  width : Float
  height : Float

/-- A line that is drawn: its index, where it begins, and its size. -/
structure Line where
  index : Nat
  offset : Float
  size : Float

/-- Stack lines from `i` on, at most `count`, as long as their total `sum` has
    not passed `limit`. Returns the index after the last line, where that line
    begins, and its size. -/
def walk (size : Nat → Float) (limit : Float) : Nat → Nat → Float → Float → Nat × Float × Float
  | 0, i, sum, last => (i, sum - last, last)
  | count + 1, i, sum, last =>
    if limit < sum then (i, sum - last, last)
    else walk size limit count (i + 1) (sum + size i) (size i)

/-- Stack lines like `walk`, with some lines taking no room. The size of the
    last line that took room is kept for those that take none. -/
def walkVisible (size : Nat → Float) (skip : Nat → Bool) (limit : Float) :
    Nat → Nat → Float → Float → Nat × Float × Float
  | 0, i, sum, last => (i, sum - last, last)
  | count + 1, i, sum, last =>
    if limit < sum then (i, sum - last, last)
    else if skip i then walkVisible size skip limit count (i + 1) sum last
    else walkVisible size skip limit count (i + 1) (sum + size i) (size i)

/-- Stack lines from `i` on, at most `count`, until their total passes `limit`.
    Returns the last line that took room, and the total. -/
def reach (size : Nat → Float) (skip : Nat → Bool) (limit : Float) :
    Nat → Nat → Nat → Float → Nat × Float
  | 0, _, last, sum => (last, sum)
  | count + 1, i, last, sum =>
    let last' := if skip i then last else i
    let sum' := if skip i then sum else sum + size i
    if limit < sum' then (last', sum') else reach size skip limit count (i + 1) last' sum'

/-- Draw lines from `i` to `stop`, until `limit` is passed. Every line that is
    skipped makes room for one more past `stop`, and lines without a size are
    not drawn. The first argument bounds the number of lines. -/
def visit (size : Nat → Float) (skip : Nat → Bool) (limit : Float) :
    Nat → Nat → Nat → Float → List Line
  | 0, _, _, _ => []
  | fuel + 1, i, stop, offset =>
    if stop < i then []
    else if skip i then visit size skip limit fuel (i + 1) (stop + 1) offset
    else
      let h := size i
      if 0.0 < h then
        let next := offset + h
        ⟨i, offset, h⟩ ::
          (if limit < next then [] else visit size skip limit fuel (i + 1) stop next)
      else visit size skip limit fuel (i + 1) stop offset

namespace Sheet

/-- The height of a row. -/
def rowHeight (s : Sheet) (i : Nat) : Float := s.rows.height s.settings.rows.height i

/-- The width of a column. -/
def columnWidth (s : Sheet) (i : Nat) : Float := s.cols.width s.settings.cols.width i

/-- The heights of the rows from `lo` up to but not including `hi`, hidden by a
    filter or not. -/
def sumHeights (s : Sheet) (lo hi : Nat) : Float :=
  s.rows.sumHeights s.settings.rows.height lo hi []

/-- The heights of the rows from `lo` up to but not including `hi` that no
    filter hides. -/
def sumShownHeights (s : Sheet) (lo hi : Nat) : Float :=
  s.rows.sumHeights s.settings.rows.height lo hi s.view.hidden

/-- The widths of the columns from `lo` up to but not including `hi`. -/
def sumWidths (s : Sheet) (lo hi : Nat) : Float :=
  s.cols.sumWidths s.settings.cols.width lo hi

/-- The height of all rows. -/
def totalHeight (s : Sheet) : Float := s.sumHeights 0 s.rows.len

/-- The width of all columns. -/
def totalWidth (s : Sheet) : Float := s.sumWidths 0 s.cols.len

/-- Is part of the sheet frozen? -/
def isFrozen (s : Sheet) : Bool := 0 < s.freeze.row || 0 < s.freeze.col

/-- The width of the frozen part. -/
def frozenWidth (s : Sheet) : Float := s.sumWidths 0 s.freeze.col

/-- The height of the frozen part. -/
def frozenHeight (s : Sheet) : Float := s.sumHeights 0 s.freeze.row

/-- The frozen corner, when part of the sheet is frozen. -/
def frozenRange? (s : Sheet) : Option SizedRange :=
  if s.isFrozen then
    some ⟨.between .origin ⟨s.freeze.row - 1, s.freeze.col - 1⟩, s.frozenWidth, s.frozenHeight⟩
  else none

/-- Where a cell is, with the merge it anchors. -/
def cellRect (s : Sheet) (c : CellRef) : Rect :=
  let span := s.rows.span c
  { left := s.sumWidths 0 c.col
    top := s.sumHeights 0 c.row
    width := s.sumWidths c.col (c.col + span.cols + 1)
    height := s.sumHeights c.row (c.row + span.rows + 1) }

/-- Where a range is seen. A range that begins in the frozen part does not
    scroll. -/
def rangeRect (s : Sheet) (r : Range) : RangeRect :=
  let left := s.sumWidths 0 r.left
  let top := s.sumShownHeights 0 r.top
  let frozenLeft := 0.0 < s.frozenWidth && left < s.frozenWidth
  let frozenTop := 0.0 < s.frozenHeight && top < s.frozenHeight
  { left := if frozenLeft then left else left - s.scroll.x
    top := if frozenTop then top else top - s.scroll.y
    width := s.sumWidths r.left (r.right + 1)
    height := s.sumShownHeights r.top (r.bottom + 1)
    unscrolledLeft := left
    unscrolledTop := top }

/-- Where the selection is seen. -/
def selectionRect? (s : Sheet) : Option RangeRect := s.selection.range.map s.rangeRect

/-- Where the range to be pasted is seen. -/
def clipboardRect? (s : Sheet) : Option RangeRect := s.clipboard.range?.map s.rangeRect

/-- Is a point inside the selection? The header and the gutter come before the
    first row and column. -/
def isInSelection (s : Sheet) (x y : Float) : Bool :=
  match s.selectionRect? with
  | none => false
  | some r =>
    let x := x - s.settings.cols.gutter
    let y := y - s.settings.rows.height
    r.left < x && x < r.left + r.width && r.top < y && y < r.top + r.height

/-- The row at a height, where it begins, and its size. -/
def rowAt (s : Sheet) (y : Float) : Option Nat × Float × Float :=
  let header := s.settings.rows.height
  let start := if s.frozenHeight + header < y then header - s.scroll.y else header
  let (i, top, height) := walkVisible s.rowHeight s.view.isHidden y s.rows.len 0 start header
  if top ≤ 0.0 ∨ i = 0 then (none, 0.0, height) else (some (i - 1), top, height)

/-- The column at a distance from the left, where it begins, and its size. -/
def columnAt (s : Sheet) (x : Float) : Option Nat × Float × Float :=
  let gutter := s.settings.cols.gutter
  let start := if s.frozenWidth + gutter < x then gutter - s.scroll.x else gutter
  let (i, left, width) := walk s.columnWidth x s.cols.len 0 start gutter
  if left ≤ 0.0 ∨ i = 0 then (none, 0.0, gutter) else (some (i - 1), left, width)

/-- What is at a point. A cell that a merge covers counts as its first cell,
    with the rectangle of the merge. -/
def hit (s : Sheet) (x y : Float) : Hit :=
  let (row, top, height) := s.rowAt y
  let (col, left, width) := s.columnAt x
  let plain : Hit :=
    { row, col
      rect :=
        { left, top
          width := if col.isNone then s.totalWidth else width
          height := if row.isNone then s.totalHeight else height } }
  match row, col with
  | some i, some j => match s.merges.firstAt? ⟨i, j⟩ with
    | some m => ⟨some m.top, some m.left, s.cellRect m.first⟩
    | none => plain
  | _, _ => plain

/-- Scroll sideways to the edge of the column at an offset. -/
def scrollX (s : Sheet) (x : Float) : Sheet × Outcome :=
  let (i, left, width) := walk s.columnWidth x (s.cols.len - s.freeze.col) s.freeze.col 0.0 0.0
  let target := if 0.0 < x then left + width else left
  if s.scroll.x == target then (s, .ignored)
  else
    ({ s with scroll := { s.scroll with x := target, col := if 0.0 < x then i else 0 } }, .applied)

/-- Scroll up or down to the edge of the row at an offset. -/
def scrollY (s : Sheet) (y : Float) : Sheet × Outcome :=
  let (i, top, height) := walk s.rowHeight y (s.rows.len - s.freeze.row) s.freeze.row 0.0 0.0
  let target := if 0.0 < y then top + height else top
  if s.scroll.y == target then (s, .ignored)
  else
    ({ s with scroll := { s.scroll with y := target, row := if 0.0 < y then i else 0 } }, .applied)

/-- The range that is seen in a window of a given size. -/
def visibleRange (s : Sheet) (width height : Float) : SizedRange :=
  let row := if s.scroll.row = 0 then s.freeze.row else s.scroll.row
  let col := if s.scroll.col = 0 then s.freeze.col else s.scroll.col
  let (lastRow, y) := reach s.rowHeight s.view.isHidden height (s.rows.len - row) row row 0.0
  let (lastCol, x) := reach s.columnWidth (fun _ => false) width (s.cols.len - col) col col 0.0
  ⟨.between ⟨row, col⟩ ⟨lastRow, lastCol⟩, x, y⟩

/-- The range that holds every cell. -/
def contentRange (s : Sheet) : SizedRange :=
  let c := s.rows.maxCell
  ⟨.between .origin c, s.sumWidths 0 (c.col + 1), s.sumHeights 0 (c.row + 1)⟩

/-- The rows that are drawn in a window from the `first` shown row to the
    `last`, in order. -/
def visitRows (s : Sheet) (first last : Nat) (limit : Float) : List Line :=
  let before := (s.view.hidden.filter (· < first)).length
  visit s.rowHeight s.view.isHidden limit (last + 1 - first + s.view.hidden.length)
    (first + before) (last + before) 0.0

/-- The columns that are drawn in a window from the `first` to the `last`, in
    order. -/
def visitColumns (s : Sheet) (first last : Nat) (limit : Float) : List Line :=
  visit s.columnWidth (fun _ => false) limit (last + 1 - first) first last 0.0

end Sheet

end Worksheet
