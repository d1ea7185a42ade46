import Worksheet.Sheet.Formatting

/-!
# What Formatting Keeps

Induction over the ways in which formatting changes a sheet.

Borders are drawn cell by cell, along rows and along columns, and functions are
written below or beside the selection. None of this does anything to the sheet
but edit the style of a cell or put a text into one. So whatever these two keep,
formatting keeps, and that is shown here once for every property.

## Theorems

* `drawBorders_keeps`: What style edits keep, drawing borders keeps.
* `insertFunction_keeps`: What putting a text keeps, inserting a function keeps.
-/

namespace Worksheet

namespace Sheet

variable {P : Sheet → Prop}

/-- What one step keeps, all steps keep. -/
theorem foldl_keeps {α : Type} {f : Sheet → α → Sheet} (h : ∀ s a, P s → P (f s a)) (as : List α)
    {s : Sheet} (hs : P s) : P (as.foldl f s) :=
  List.foldlRecOn as f hs fun s hs a _ => h s a hs

section

variable (hedit : ∀ s edit c, P s → P (s.editStyle edit c))
include hedit

theorem eraseBorder_keeps (s : Sheet) (c : CellRef) (hs : P s) : P (s.eraseBorder c) := by
  unfold eraseBorder
  split
  · exact hedit s _ c hs
  · exact hs

theorem drawCell_keeps (mode : BorderMode) (e : BorderEdge) (r : Range) (s : Sheet) (c : CellRef)
    (hs : P s) : P (drawCell mode e r s c) := by
  -- A cell that a merge covers is not drawn on, and neither is one without edges.
  have hdraw (covered : Bool) (edges : Border) :
      P (if covered then s else if edges.isEmpty then s else s.drawBorder edges c) := by
    split
    · exact hs
    · split
      · exact hs
      · exact hedit s _ c hs
  exact hdraw _ _

theorem drawAlongRow_keeps (edges : Border) (row last fuel col : Nat) {s : Sheet} (hs : P s) :
    P (s.drawAlongRow edges row last fuel col) := by
  induction fuel generalizing col s with
  | zero => exact hs
  | succ fuel ih =>
    rw [drawAlongRow]
    split
    · exact hs
    · exact ih _ (hedit s _ _ hs)

theorem drawAlongColumn_keeps (edges : Border) (col last fuel row : Nat) {s : Sheet} (hs : P s) :
    P (s.drawAlongColumn edges col last fuel row) := by
  induction fuel generalizing row s with
  | zero => exact hs
  | succ fuel ih =>
    rw [drawAlongColumn]
    split
    · exact hs
    · exact ih _ (hedit s _ _ hs)

/-- What style edits keep, drawing borders keeps. -/
theorem drawBorders_keeps (mode : BorderMode) (e : BorderEdge) (r : Range) {s : Sheet}
    (hs : P s) : P (s.drawBorders mode e r) := by
  -- Single edges are drawn along a line of cells, and all others cell by cell.
  have hcells := foldl_keeps (drawCell_keeps hedit mode e r) r.cells hs
  cases mode with
  | none => exact foldl_keeps (eraseBorder_keeps hedit) r.cells hs
  | top | bottom => exact drawAlongRow_keeps hedit _ _ _ _ _ hs
  | left | right => exact drawAlongColumn_keeps hedit _ _ _ _ _ hs
  | all => exact hcells
  | outside =>
    simp only [drawBorders]
    split
    · exact hedit s _ _ hs
    · exact hcells
  | inside | horizontal | vertical =>
    simp only [drawBorders]
    split
    · exact hs
    · exact hcells

end

/-- What putting a text into a cell keeps, inserting a function keeps. -/
theorem insertFunction_keeps (hput : ∀ s c text, P s → P (s.putText c text))
    (f : Formula.Function) (r : Range) {s : Sheet} (hs : P s) : P (s.insertFunction f r) := by
  simp only [insertFunction]
  split
  -- One function below each column, or one beside or below the range.
  · exact foldl_keeps (fun s _ => hput s _ _) _ hs
  · split
    · exact hput s _ _ hs
    · exact hput s _ _ hs

end Sheet

end Worksheet
