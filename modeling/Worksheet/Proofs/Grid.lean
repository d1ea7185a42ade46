import Worksheet.Columns
import Worksheet.Merges
import Worksheet.Proofs.Address.Moving
import Worksheet.Rows.Transfer

/-!
# Sheets That Are Counted With Indices

What is stored before a line, so that nothing is stored past the grid.

The stores of the model take all natural numbers, and indices have sixty-four
bits. So a statement about stores that lines are moved in, or ranges widened in,
asks that the result lies below the end of the grid. Displacements are signed,
and there it is enough that everything lies in the first half of it. Both are
the same condition for a different line, and are about what is stored before an
operation or after it.

A range is counted by its cells as well as by its edges.

The displacement from one index to another is the difference of two signed
numbers. Those of the second half of the grid are below zero, so the difference
is the right one, and small enough to be read as itself, when both indices lie in
the same half.

## Main definitions

* `SparseMap.Below`, `Rows.Below`, `Columns.Below`: Stores before a line.
* `Range.Below`, `Merges.Below`: Ranges that end before a line.
* `CellRef.SameHalf`: Cells whose displacement from each other is a signed number.
* `CellRef.offsetTo`: The displacement from a cell to another, of whatever size.

## Theorems

* `CellRef.SameHalf.displacementTo`: A displacement that is read as itself.
* `CellRef.move?_offsetTo`: A displacement that leads from the one cell to the other.
-/

namespace Worksheet

open Address

/-- Are all keys below an index? -/
def SparseMap.Below {α : Type} (limit : Nat) (m : SparseMap α) : Prop :=
  ∀ e ∈ m.entries, e.1 < limit

instance {α : Type} (limit : Nat) (m : SparseMap α) : Decidable (m.Below limit) :=
  inferInstanceAs (Decidable (∀ e ∈ m.entries, e.1 < limit))

/-- Do the rows and their cells lie before a line? -/
structure Rows.Below (limit : Nat) (s : Rows) : Prop where
  len : s.len < limit
  rows : s.rows.Below limit
  cells : ∀ e ∈ s.rows.entries, e.2.cells.Below limit

instance (limit : Nat) (s : Rows) : Decidable (s.Below limit) :=
  decidable_of_iff
    (s.len < limit ∧ s.rows.Below limit ∧ ∀ e ∈ s.rows.entries, e.2.cells.Below limit)
    ⟨fun h => ⟨h.1, h.2.1, h.2.2⟩, fun h => ⟨h.len, h.rows, h.cells⟩⟩

theorem Rows.Below.cell {limit : Nat} {s : Rows} (h : s.Below limit) {c : CellRef} {cell : Cell}
    (hcell : s.cell? c = some cell) : c.row < limit ∧ c.col < limit := by
  unfold Rows.cell? Rows.row? at hcell
  cases hrow : s.rows.get? c.row with
  | none =>
    rw [hrow] at hcell
    cases hcell
  | some r =>
    rw [hrow] at hcell
    have hmem := SparseMap.get?_eq_some_iff.1 hrow
    exact ⟨h.rows _ hmem, h.cells _ hmem _ (SparseMap.get?_eq_some_iff.1 hcell)⟩

/-- Do the columns lie before a line? -/
structure Columns.Below (limit : Nat) (s : Columns) : Prop where
  len : s.len < limit
  cols : s.cols.Below limit

instance (limit : Nat) (s : Columns) : Decidable (s.Below limit) :=
  decidable_of_iff (s.len < limit ∧ s.cols.Below limit)
    ⟨fun h => ⟨h.1, h.2⟩, fun h => ⟨h.len, h.cols⟩⟩

/-- Does a range end before a line, with no more cells than can be counted? -/
structure Range.Below (limit : Nat) (r : Range) : Prop where
  bottom : r.bottom < limit
  right : r.right < limit
  count : r.count < gridLimit

instance (limit : Nat) (r : Range) : Decidable (r.Below limit) :=
  decidable_of_iff (r.bottom < limit ∧ r.right < limit ∧ r.count < gridLimit)
    ⟨fun h => ⟨h.1, h.2.1, h.2.2⟩, fun h => ⟨h.bottom, h.right, h.count⟩⟩

theorem Range.Below.lastLine {limit : Nat} {r : Range} (h : r.Below limit) (axis : Axis) :
    r.lastLine axis < limit := by
  cases axis with
  | row => exact h.bottom
  | column => exact h.right

/-- What lies before a line lies before every later one. -/
theorem Range.Below.mono {limit limit' : Nat} {r : Range} (h : r.Below limit)
    (hle : limit ≤ limit') : r.Below limit' :=
  ⟨Nat.lt_of_lt_of_le h.bottom hle, Nat.lt_of_lt_of_le h.right hle, h.count⟩

/-- Do all merges end before a line? -/
def Merges.Below (limit : Nat) (m : Merges) : Prop := ∀ r ∈ m.ranges, r.Below limit

instance (limit : Nat) (m : Merges) : Decidable (m.Below limit) :=
  inferInstanceAs (Decidable (∀ r ∈ m.ranges, r.Below limit))

theorem Merges.Below.mono {limit limit' : Nat} {m : Merges} (h : m.Below limit)
    (hle : limit ≤ limit') : m.Below limit' := fun r hr => (h r hr).mono hle

/-! ## Displacements -/

/-- Are two indices on the same half of the grid? -/
def Address.SameHalf (i j : Nat) : Prop :=
  (i < reach ∧ j < reach) ∨ (reach ≤ i ∧ i < gridLimit ∧ reach ≤ j ∧ j < gridLimit)

instance (i j : Nat) : Decidable (Address.SameHalf i j) := inferInstanceAs (Decidable (_ ∨ _))

theorem Address.SameHalf.signed_sub {i j : Nat} (h : Address.SameHalf i j) :
    signed ((j : Int) - i) = j - i := by
  unfold Address.SameHalf at h
  refine signed_of_bounds ?_ ?_
  all_goals
    simp only [gridLimit, reach, UInt64.size] at *
    omega

namespace CellRef

/-- Are two cells on the same half of the grid, by their rows and by their columns? -/
structure SameHalf (a b : CellRef) : Prop where
  row : Address.SameHalf a.row b.row
  col : Address.SameHalf a.col b.col

instance (a b : CellRef) : Decidable (a.SameHalf b) :=
  decidable_of_iff (Address.SameHalf a.row b.row ∧ Address.SameHalf a.col b.col)
    ⟨fun h => ⟨h.1, h.2⟩, fun h => ⟨h.row, h.col⟩⟩

/-- The displacement from one cell to another, of whatever size it is. -/
def offsetTo (a b : CellRef) : Displacement := ⟨(b.col : Int) - a.col, (b.row : Int) - a.row⟩

variable {a b : CellRef} {d : Displacement}

theorem offsetTo_eq_iff : a.offsetTo b = d ↔
    (b.row : Int) = a.row + d.rows ∧ (b.col : Int) = a.col + d.cols := by
  obtain ⟨cols, rows⟩ := d
  simp only [offsetTo, Displacement.mk.injEq]
  omega

/-- Between cells of the same half the displacement is read as itself. -/
theorem SameHalf.displacementTo (h : a.SameHalf b) : a.displacementTo b = a.offsetTo b := by
  rw [CellRef.displacementTo, h.row.signed_sub, h.col.signed_sub, offsetTo]

/-- The displacement to a cell of the grid leads to it. -/
theorem move?_offsetTo (hrow : b.row < gridLimit) (hcol : b.col < gridLimit) :
    a.move? (a.offsetTo b) = some b := by
  obtain ⟨hrows, hcols⟩ := offsetTo_eq_iff.1 (Eq.refl (a.offsetTo b))
  exact move?_eq_some_iff.2 ⟨⟨hrows, hrow⟩, hcols, hcol⟩

end CellRef

end Worksheet
