import Worksheet.Sheet.State

/-!
# Selecting and Merging

What is selected, and making one cell of it.

Selecting a cell selects the merge that covers it. Stretching a selection
takes in every merge it touches, so that a selection never ends inside one.
A merge keeps its first cell, which carries the span, and empties the others.

## Main definitions

* `select`, `selectCell`, `selectRow`, `selectColumn`, `extendTo`: Selecting.
* `isSingle`, `isExactMerge`: Is the selection one cell to the user?
* `merge`, `unmerge`: Merging the selection.
-/

namespace Worksheet

namespace Sheet

/-- Select a range, with its first cell active. -/
def select (s : Sheet) (r : Range) : Sheet :=
  { s with selection := ⟨some r, r.first⟩ }

/-- Select a range with a given active cell. -/
def selectWith (s : Sheet) (r : Range) (active : CellRef) : Sheet :=
  { s with selection := ⟨some r, active⟩ }

/-- Select a cell, or the merge that covers it. -/
def selectCell (s : Sheet) (c : CellRef) : Sheet × Range :=
  let r := (s.merges.firstAt? c).getD (.single c)
  (s.selectWith r c, r)

/-- Select a row. -/
def selectRow (s : Sheet) (row : Nat) : Sheet × Range :=
  let r := Range.between ⟨row, 0⟩ ⟨row, s.cols.len - 1⟩
  (s.selectWith r ⟨row, 0⟩, r)

/-- Select a column. -/
def selectColumn (s : Sheet) (col : Nat) : Sheet × Range :=
  let r := Range.between ⟨0, col⟩ ⟨s.rows.len - 1, col⟩
  (s.selectWith r ⟨0, col⟩, r)

/-- Stretch the selection from the active cell to another one, and over every
    merge it touches. -/
def extendTo (s : Sheet) (c : CellRef) : Sheet × Range :=
  let r := s.merges.grow ((Range.single s.selection.active).union (.single c))
  ({ s with selection := { s.selection with range := some r } }, r)

/-- Does the first cell of a range anchor a merge of exactly the range? -/
def isExactMerge (s : Sheet) (r : Range) : Bool :=
  match (s.rows.cell? r.first).bind Cell.merge with
  | some span => r.top + span.rows == r.bottom && r.left + span.cols == r.right
  | none => false

/-- Is the selection one cell, or exactly one merge? Selections are taken to have fewer
    than 2 ^ 64 cells, where sixty-four bits count them right. -/
def isSingle (s : Sheet) : Bool :=
  match s.selection.range with
  | some r => s.isExactMerge r || !r.isMultiple
  | none => true

/-- Is the selection exactly one merge? -/
def canUnmerge (s : Sheet) : Bool := s.selection.range.any s.isExactMerge

/-- Does the selection hold more than one cell? -/
def isMultiple (s : Sheet) : Bool := s.selection.range.any Range.isMultiple

/-- Merge a range: its first cell takes the span, and all others go. -/
def mergeRange (r : Range) (s : Sheet) : Sheet :=
  let anchor :=
    { (s.rows.cell? r.first).getD {} with merge := some ⟨r.height - 1, r.width - 1⟩ }
  { s with
    merges := s.merges.add r
    rows := (s.rows.clearCells .all r).setCell r.first anchor .all }

/-- Merge the selection. Merges inside it are absorbed, and one that sticks
    out of it is a reason to refuse. -/
def merge (s : Sheet) : Sheet × Outcome :=
  match s.selection.range with
  | none => (s, .rejected .noSelection)
  | some r =>
    if s.isSingle then (s, .ignored)
    else match s.merges.straddling? r with
      | some m => (s, .rejected (.mergeOverlap m))
      | none => s.commit (mergeRange r)

/-- Undo the merge of a range. -/
def unmergeRange (r : Range) (s : Sheet) : Sheet :=
  { s with rows := s.rows.clearCell .merge r.first, merges := s.merges.removeWithin r }

/-- Make single cells of the selected merge. -/
def unmerge (s : Sheet) : Sheet × Outcome :=
  if s.isSingle then s.commitOnSelection unmergeRange else (s, .ignored)

/-- The merges that share a cell with a range. -/
def mergesIn (s : Sheet) (r : Range) : List Range := s.merges.meeting r

end Sheet

end Worksheet
