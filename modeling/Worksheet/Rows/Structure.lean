import Worksheet.Address.Reference
import Worksheet.Rows.Basic

/-!
# Inserting and Deleting Lines

Rows and columns put into a sheet or taken out of it.

An edit relabels the rows, or the columns inside every row, and changes every
formula: references at or past an insertion move up, references past a
deletion move down, and all others stay. A reference into deleted lines stays
too, and from then on names whatever took their place. The number of lines is
read as a signed one, so an insertion of two to the sixty-third lines or more moves
the references the other way.

## Main definitions

* `mapFormulas`: Every formula text changed.
* `insertRows`, `deleteRows`, `insertColumns`, `deleteColumns`: The edits.
-/

namespace Worksheet

namespace Rows

/-- The cell with its text changed if it is a formula. -/
def mapFormula (f : List Char → List Char) (cell : Cell) : Cell :=
  { cell with text := cell.text.map fun s =>
      if isFormulaText s then String.ofList (f s.toList) else s }

/-- Change the text of every formula. -/
def mapFormulas (f : List Char → List Char) (s : Rows) : Rows :=
  s.mapCells fun _ cell => mapFormula f cell

/-- Insert `n` rows before row `first`. -/
def insertRows (s : Rows) (first n : Nat) : Rows :=
  ({ len := s.len + n, rows := s.rows.shiftUp first n } : Rows).mapFormulas
    (Address.shiftReferences ⟨0, Address.signed n⟩ fun c => first ≤ c.row)

/-- Delete the rows from `first` to `last`. -/
def deleteRows (s : Rows) (first last : Nat) : Rows :=
  let n := last - first + 1
  ({ len := s.len - n, rows := s.rows.removeSpan first last } : Rows).mapFormulas
    (Address.shiftReferences ⟨0, Address.signed (-(n : Int))⟩ fun c => last < c.row)

/-- Relabel the cells of every row. -/
def mapRowCells (s : Rows) (f : SparseMap Cell → SparseMap Cell) : Rows :=
  { s with rows := s.rows.mapValues fun _ r => { r with cells := f r.cells } }

/-- Insert `n` columns before column `first`. -/
def insertColumns (s : Rows) (first n : Nat) : Rows :=
  (s.mapRowCells fun cells => cells.shiftUp first n).mapFormulas
    (Address.shiftReferences ⟨Address.signed n, 0⟩ fun c => first ≤ c.col)

/-- Delete the columns from `first` to `last`. -/
def deleteColumns (s : Rows) (first last : Nat) : Rows :=
  let n := last - first + 1
  (s.mapRowCells fun cells => cells.removeSpan first last).mapFormulas
    (Address.shiftReferences ⟨Address.signed (-(n : Int)), 0⟩ fun c => last < c.col)

end Rows

end Worksheet
