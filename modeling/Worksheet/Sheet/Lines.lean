import Worksheet.Sheet.State

/-!
# Rows and Columns of a Sheet

Inserting, deleting, sizing and hiding lines.

An insertion or deletion relabels cells, formulas and merges together, and
the cells that anchor a merge across the edit take on its new span. At least
one row and one column always remain, so a deletion of all of them is
ignored.

Whole lines are hidden when the selection covers the sheet from end to end:
a selection as high as the sheet hides its columns, and one as wide hides its
rows.

## Main definitions

* `insertAt`, `deleteAt`: Edits at an index.
* `insertSelected`, `deleteSelected`: The same at the selection.
* `setRowHeight`, `setColumnWidth`, `hideSelected`, `unhideBefore`: Sizes.
* `setFreeze`: The part that does not scroll.
-/

namespace Worksheet

/-- A span after lines were inserted into the merge or deleted from it; none
    when nothing of it is left. -/
def Span.changed (span : Span) (d : Displacement) : Option Span :=
  let span' : Span := ⟨Address.clamp (span.rows + d.rows), Address.clamp (span.cols + d.cols)⟩
  if span' = .zero then none else some span'

namespace Sheet

/-- The number of lines along an axis. -/
def lineCount (s : Sheet) (axis : Axis) : Nat :=
  match axis with
  | .row => s.rows.len
  | .column => s.cols.len

/-- Give the cell that anchors a merge its new span. -/
def changeSpan (rows : Rows) (c : SpanChange) : Rows :=
  rows.modifyCell c.anchor fun cell => match cell.merge with
    | some span => { cell with merge := span.changed c.change }
    | none => cell

/-- Adjust the merges to `n` lines inserted, or `-n` deleted, and the spans of
    the cells that anchor them. -/
def shiftMerges (s : Sheet) (axis : Axis) (index : Nat) (n : Int) : Sheet :=
  let (merges, changes) := s.merges.shift axis index n
  { s with merges, rows := changes.foldl changeSpan s.rows }

/-- Insert lines. -/
def insertLines (axis : Axis) (index n : Nat) (s : Sheet) : Sheet :=
  let s := match axis with
    | .row => { s with rows := s.rows.insertRows index n }
    | .column => { s with rows := s.rows.insertColumns index n, cols := s.cols.insert index n }
  s.shiftMerges axis index (Address.signed n)

/-- Delete lines. -/
def deleteLines (axis : Axis) (first last : Nat) (s : Sheet) : Sheet :=
  let s := match axis with
    | .row => { s with rows := s.rows.deleteRows first last }
    | .column =>
      { s with rows := s.rows.deleteColumns first last, cols := s.cols.delete first last }
  s.shiftMerges axis first (Address.signed (-((last - first + 1 : Nat) : Int)))

/-- Insert `n` lines before a line. -/
def insertAt (s : Sheet) (axis : Axis) (index n : Nat) : Sheet × Outcome :=
  if n = 0 then (s, .ignored) else s.commit (insertLines axis index n)

/-- Delete the lines between two lines, both included, as far as there are
    any. -/
def deleteAt (s : Sheet) (axis : Axis) (a b : Nat) : Sheet × Outcome :=
  let len := s.lineCount axis
  let first := min a b
  let last := min (max a b) (len - 1)
  if last < first ∨ len ≤ last - first + 1 then (s, .ignored)
  else s.commit (deleteLines axis first last)

/-- Insert `n` lines before the selection. -/
def insertSelected (s : Sheet) (axis : Axis) (n : Nat) : Sheet × Outcome :=
  match s.selection.range with
  | some r => s.insertAt axis (r.firstLine axis) n
  | none => (s, .ignored)

/-- Delete the selected lines. -/
def deleteSelected (s : Sheet) (axis : Axis) : Sheet × Outcome :=
  match s.selection.range with
  | some r => s.deleteAt axis (r.firstLine axis) (r.lastLine axis)
  | none => (s, .ignored)

/-- Give a row a height. -/
def setRowHeight (s : Sheet) (row : Nat) (h : Float) : Sheet × Outcome :=
  s.commit fun s => { s with rows := s.rows.setHeight row h }

/-- Give a column a width. -/
def setColumnWidth (s : Sheet) (col : Nat) (w : Float) : Sheet × Outcome :=
  s.commit fun s => { s with cols := s.cols.setWidth s.settings.cols.minWidth col w }

/-- Hide the columns of a range. -/
def hideColumns (r : Range) (s : Sheet) : Sheet :=
  { s with cols := (List.range' r.left r.width).foldl (fun cols i => cols.setHidden i true) s.cols }

/-- Hide the rows of a range. -/
def hideRows (r : Range) (s : Sheet) : Sheet :=
  { s with rows := (List.range' r.top r.height).foldl (fun rows i => rows.setHidden i true) s.rows }

/-- Hide the selected columns or rows, if the selection covers them from end to
    end. -/
def hideSelected (s : Sheet) : Sheet × Outcome :=
  match s.selection.range with
  | some r =>
    if r.height = s.rows.len then s.commit (hideColumns r)
    else if r.width = s.cols.len then s.commit (hideRows r)
    else (s, .ignored)
  | none => (s, .ignored)

/-- Show the run of hidden lines that ends just before a line. -/
def unhideBefore (s : Sheet) (axis : Axis) (index : Nat) : Sheet × Outcome :=
  s.commit fun s => match axis with
    | .row => { s with rows := s.rows.unhide index }
    | .column => { s with cols := s.cols.unhide index }

/-- Set the first cell that scrolls. -/
def setFreeze (s : Sheet) (c : CellRef) : Sheet × Outcome :=
  s.commit fun s => { s with freeze := c }

end Sheet

end Worksheet
