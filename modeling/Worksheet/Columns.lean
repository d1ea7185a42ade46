import Worksheet.Number.Extreme
import Worksheet.Rows.Basic

/-!
# Columns

The widths of a sheet's columns.

Cells are stored with the rows, so a column only has a width, a style and
whether it is hidden, and only columns that were touched are stored. A width
that is set is never below the least width of the sheet.

## Main definitions

* `Column`, `Columns`: The store.
* `width`, `setWidth`, `isHidden`, `unhide`, `sumWidths`: Columns as lines on
  the screen.
* `insert`, `delete`: Structural edits.
* `Columns.ofJson?`, `Columns.toJson`: The store and its tree.
-/

namespace Worksheet

/-- A stored column. -/
structure Column where
  width : Option Float := none
  hidden : Bool := false
  style : Option Nat := none
  deriving DecidableEq

/-- The columns of a sheet. -/
structure Columns where
  /-- The number of columns the sheet shows. -/
  len : Nat
  cols : SparseMap Column := .empty
  deriving DecidableEq

namespace Columns

/-- A column, as stored. -/
def col? (s : Columns) (i : Nat) : Option Column := s.cols.get? i

/-- Change a column, which is stored from then on. -/
def editCol (s : Columns) (i : Nat) (edit : Column → Column) : Columns :=
  { s with cols := s.cols.update i fun c => edit (c.getD {}) }

/-- The width a column is shown with; nothing is seen of a hidden column. -/
def width (defaultWidth : Float) (s : Columns) (i : Nat) : Float :=
  match s.col? i with
  | some c => if c.hidden then 0.0 else c.width.getD defaultWidth
  | none => defaultWidth

/-- Give a column a width of its own, at least the least width. A width that
    is not a number counts as the least, and so does a zero of the other sign
    when the least width is zero. -/
def setWidth (minWidth : Float) (s : Columns) (i : Nat) (w : Float) : Columns :=
  s.editCol i fun c => { c with width := some (Number.greater w minWidth) }

/-- Is the column hidden by hand? -/
def isHidden (s : Columns) (i : Nat) : Bool :=
  (s.col? i).any Column.hidden

/-- Hide or show a column. -/
def setHidden (s : Columns) (i : Nat) (hidden : Bool) : Columns :=
  s.editCol i fun c => { c with hidden }

/-- Show the run of hidden columns that ends just before `i`. -/
def unhide (s : Columns) (i : Nat) : Columns :=
  (hiddenRun s.isHidden i).foldl (fun s j => s.setHidden j false) s

/-- Give a column a style. -/
def setStyle (s : Columns) (i style : Nat) : Columns :=
  s.editCol i fun c => { c with style := some style }

/-- The widths of the columns from `lo` up to but not including `hi`. -/
def sumWidths (defaultWidth : Float) (s : Columns) (lo hi : Nat) : Float :=
  sumFrom (s.width defaultWidth) lo (hi - lo)

/-- The widths of all columns. -/
def totalWidth (defaultWidth : Float) (s : Columns) : Float :=
  s.sumWidths defaultWidth 0 s.len

/-- Insert `n` columns before column `first`. -/
def insert (s : Columns) (first n : Nat) : Columns :=
  { len := s.len + n, cols := s.cols.shiftUp first n }

/-- Delete the columns from `first` to `last`. -/
def delete (s : Columns) (first last : Nat) : Columns :=
  { len := s.len - (last - first + 1), cols := s.cols.removeSpan first last }

end Columns

open Json

/-- Read a column. -/
def Column.ofJson? (form : Form) (j : Json) : Option Column := do
  let fields ← record? form ["width", "hidden", "style"] j
  return { width := ← optional? float? (find? "width" fields)
           hidden := ← withDefault? bool? false (find? "hidden" fields)
           style := ← optional? index? (find? "style" fields) }

/-- The tree of a column. -/
def Column.toJson (c : Column) : Json :=
  .object (fieldIf "width" (c.width.map .float) ++
    fieldWhen "hidden" c.hidden ++
    fieldIf "style" (c.style.map ofIndex))

/-- Read the columns of a sheet. -/
def Columns.ofJson? (form : Form) (j : Json) : Option Columns := do
  let fields ← record? form ["len", "cols"] j
  return { len := ← required? index? (find? "len" fields)
           cols := ← withDefault? (indexMap? (Column.ofJson? form)) .empty (find? "cols" fields) }

/-- The tree of the columns of a sheet. -/
def Columns.toJson (s : Columns) : Json :=
  .object [("len", ofIndex s.len), ("cols", ofIndexMap Column.toJson s.cols)]

end Worksheet
