import Worksheet.Merges
import Worksheet.Proofs.Address.Rectangle

/-!
# Cells Moved Along an Axis

Moving cells by moving the lines they are on.

An edit of lines moves rows or columns, and with them every cell, by one
function on indices. The function is not the same shift everywhere, but on the
lines of a range that the edit leaves whole it is. That is what `Rigid` says,
and then the cells of the range move to the cells of the range between the
moved corners, in the same order.

## Main definitions

* `CellRef.line`: The line of a cell along an axis.
* `CellRef.mapLine`: The cell with its line moved.
* `Rigid`: The lines between two indices are shifted alike.

## Theorems

* `Range.cells_mapLine`: A range that is shifted as a whole moves cell by cell.
* `Range.count_le_count`: A range whose lines move apart does not get smaller.
-/

namespace Worksheet

namespace CellRef

/-- The line of a cell along an axis. -/
def line (axis : Axis) (c : CellRef) : Nat :=
  match axis with
  | .row => c.row
  | .column => c.col

/-- The cell with its line moved. -/
def mapLine (axis : Axis) (f : Nat → Nat) (c : CellRef) : CellRef :=
  match axis with
  | .row => { c with row := f c.row }
  | .column => { c with col := f c.col }

end CellRef

/-- The lines between two indices are shifted alike. -/
def Rigid (f : Nat → Nat) (lo hi : Nat) : Prop :=
  ∀ i, lo ≤ i → i ≤ hi → f i = f lo + (i - lo)

namespace Rigid

variable {f : Nat → Nat} {lo hi : Nat}

/-- The first of two lines that are shifted alike stays the first. -/
theorem map_min {i j : Nat} (h : Rigid f (min i j) (max i j)) :
    min (f i) (f j) = f (min i j) ∧ max (f i) (f j) = f (max i j) := by
  have hi := h i (by omega) (by omega)
  have hj := h j (by omega) (by omega)
  have hmax := h (max i j) (by omega) (by omega)
  omega

/-- As many lines lie between two lines after they are shifted alike. -/
theorem sub_eq (h : Rigid f lo hi) (hle : lo ≤ hi) : f hi - f lo = hi - lo := by
  have hhi := h hi hle (Nat.le_refl hi)
  omega

/-- Shifting alike moves a run of lines to a run of lines. -/
theorem range' (h : Rigid f lo hi) (hle : lo ≤ hi) :
    List.range' (f lo) (hi - lo + 1) = (List.range' lo (hi - lo + 1)).map f := by
  apply List.ext_getElem
  · simp
  · intro i hi₁ hi₂
    have hbound : i < hi - lo + 1 := by simpa using hi₁
    rw [List.getElem_map, List.getElem_range', List.getElem_range', Nat.one_mul,
      h (lo + i) (by omega) (by omega)]
    omega

end Rigid

namespace Range

/-- A range that is shifted as a whole moves cell by cell. -/
theorem cells_mapLine {axis : Axis} {f : Nat → Nat} {a b : CellRef}
    (h : Rigid f ((between a b).firstLine axis) ((between a b).lastLine axis)) :
    (between (a.mapLine axis f) (b.mapLine axis f)).cells =
      (between a b).cells.map (CellRef.mapLine axis f) := by
  cases axis with
  | row =>
    have hrigid : Rigid f (min a.row b.row) (max a.row b.row) := h
    have hle : min a.row b.row ≤ max a.row b.row := by omega
    rcases hrigid.map_min with ⟨hmin, hmax⟩
    simp only [cells, height, width, between, CellRef.mapLine, hmin, hmax, hrigid.sub_eq hle]
    rw [hrigid.range' hle, List.flatMap_map, List.map_flatMap]
    simp only [List.map_map, Function.comp_def]
    rfl
  | column =>
    have hrigid : Rigid f (min a.col b.col) (max a.col b.col) := h
    have hle : min a.col b.col ≤ max a.col b.col := by omega
    rcases hrigid.map_min with ⟨hmin, hmax⟩
    simp only [cells, height, width, between, CellRef.mapLine, hmin, hmax, hrigid.sub_eq hle]
    rw [hrigid.range' hle, List.map_flatMap]
    simp only [List.map_map, Function.comp_def]
    rfl

/-- A range whose lines move apart does not get smaller. -/
theorem count_le_count {axis : Axis} {f : Nat → Nat} (hf : ∀ i j, i ≤ j → f i + (j - i) ≤ f j)
    (a b : CellRef) :
    (between a b).count ≤ (between (a.mapLine axis f) (b.mapLine axis f)).count := by
  -- The corners may be in either order, so the bound is needed both ways.
  have hspread (i j : Nat) : max i j - min i j ≤ max (f i) (f j) - min (f i) (f j) := by
    rcases Nat.le_total i j with hle | hle
    · have := hf i j hle
      omega
    · have := hf j i hle
      omega
  cases axis with
  | row => exact Nat.mul_le_mul (Nat.succ_le_succ (hspread a.row b.row)) (Nat.le_refl _)
  | column => exact Nat.mul_le_mul (Nat.le_refl _) (Nat.succ_le_succ (hspread a.col b.col))

end Range

end Worksheet
