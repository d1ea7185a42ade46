import Worksheet.Filter.Basic

/-!
# The Row View

Which row is shown where.

A sheet with a filter shows fewer rows than it stores, and a sort shows them
in another order. The view holds the hidden rows, and for every position that
the filter keeps the stored row that is shown there. All other rows are shown
where they are stored.

The rows that pass the filters are found in increasing order, so sorting them
by where they are stored keeps them or turns them around.

## Main definitions

* `RowView`: The hidden rows and the moved ones.
* `RowView.toStorage`, `RowView.toView`: From position to row and back.
* `AutoFilter.rowView`: The view of a filter over some texts.
-/

namespace Worksheet

/-- Which row is shown where. -/
structure RowView where
  /-- The rows that are not shown, in increasing order. -/
  hidden : List Nat := []
  /-- The positions that the filter keeps, each with the row shown there. -/
  placed : List (Nat × Nat) := []
  deriving DecidableEq, Repr

namespace RowView

/-- The view in which every row is shown where it is stored. -/
def plain : RowView := {}

/-- Is a stored row hidden? -/
def isHidden (v : RowView) (row : Nat) : Bool := v.hidden.contains row

/-- The stored row that is shown at a position. -/
def toStorage (v : RowView) (position : Nat) : Nat :=
  match v.placed.find? fun p => p.1 == position with
  | some p => p.2
  | none => position

/-- The position at which a stored row is shown. -/
def toView (v : RowView) (row : Nat) : Nat :=
  match v.placed.find? fun p => p.2 == row with
  | some p => p.1
  | none => row

/-- Does the view hide and move nothing? -/
def isPlain (v : RowView) : Bool := v.hidden.isEmpty && v.placed.isEmpty

end RowView

/-- The view of a filter over the texts of a sheet. -/
def AutoFilter.rowView (a : AutoFilter) (text : CellRef → String) : RowView :=
  let visible := a.visibleRows text
  let sorted := match a.sort.map ColumnSort.order with
    | some .descending => visible.reverse
    | _ => visible
  { hidden := a.hiddenRows text, placed := visible.zip sorted }

end Worksheet
