import Worksheet.Proofs.Rows.LineEdit
import Worksheet.Proofs.Rows.Transfer

/-!
# The Styles of Cells After a Change

That changes of the cells bring in no style.

A cell holds the index of its style, so an index has to stay below the number of
styles that there are. Only formatting makes a cell point at another style. Every
other change of the cells leaves the style of a cell as it is, takes it away, or
brings it along from another cell, and that is shown here for one cell at a time
and from there for all the ways in which many cells are changed.

## Main definitions

* `Rows.StylesBelow`: The cells hold no index from some number on.

## Theorems

* `Rows.StylesBelow.updateCell`: One cell changed.
* `Rows.StylesBelow.copyBlock`, `Rows.StylesBelow.moveBlock`: A block copied or moved.
* `LineEdit.stylesBelow_apply`: Lines inserted or deleted.
-/

namespace Worksheet

namespace Rows

/-- Is every style that a cell holds below some number? -/
def StylesBelow (n : Nat) (s : Rows) : Prop :=
  ∀ c cell, s.cell? c = some cell → ∀ i ∈ cell.style, i < n

namespace StylesBelow

variable {n : Nat} {s s' : Rows}

theorem mono {n' : Nat} (h : s.StylesBelow n) (hle : n ≤ n') : s.StylesBelow n' :=
  fun c cell hcell i hi => Nat.lt_of_lt_of_le (h c cell hcell i hi) hle

theorem of_cells (h : s.StylesBelow n) (hs : ∀ c, s'.cell? c = s.cell? c) : s'.StylesBelow n :=
  fun c cell hcell => h c cell (by rw [← hs c, hcell])

/-- A cell that is not stored has no style. -/
theorem style_getD (h : s.StylesBelow n) (c : CellRef) :
    ∀ i ∈ ((s.cell? c).getD {}).style, i < n := by
  intro i hi
  cases hcell : s.cell? c with
  | none =>
    rw [hcell] at hi
    cases hi
  | some cell =>
    rw [hcell] at hi
    exact h c cell hcell i hi

theorem foldl {α : Type} {f : Rows → α → Rows} {as : List α} (h : s.StylesBelow n)
    (hf : ∀ s, ∀ a ∈ as, s.StylesBelow n → (f s a).StylesBelow n) : (as.foldl f s).StylesBelow n :=
  List.foldlRecOn as f h fun s hs a ha => hf s a ha hs

/-! ## One cell -/

theorem updateCell (h : s.StylesBelow n) (c : CellRef) {edit : Option Cell → Cell}
    (hedit : ∀ i ∈ (edit (s.cell? c)).style, i < n) : (s.updateCell c edit).StylesBelow n := by
  intro c' cell' hcell'
  rw [cell?_updateCell] at hcell'
  split at hcell'
  · cases hcell'
    exact hedit
  · exact h c' cell' hcell'

/-- An edit that leaves the style of a cell alone. -/
theorem editCell (h : s.StylesBelow n) (c : CellRef) {edit : Cell → Cell}
    (hedit : ∀ cell, (edit cell).style = cell.style) : (s.editCell c edit).StylesBelow n :=
  h.updateCell c fun i hi => h.style_getD c i (by rwa [hedit] at hi)

theorem modifyCell (h : s.StylesBelow n) (c : CellRef) {edit : Cell → Cell}
    (hedit : ∀ cell, (edit cell).style = cell.style) : (s.modifyCell c edit).StylesBelow n := by
  intro c' cell' hcell'
  rw [cell?_modifyCell] at hcell'
  split at hcell'
  · obtain ⟨cell, hcell, rfl⟩ := Option.map_eq_some_iff.1 hcell'
    intro i hi
    exact h c cell hcell i (by rwa [hedit] at hi)
  · exact h c' cell' hcell'

theorem setText (h : s.StylesBelow n) (c : CellRef) (text : String) :
    (s.setText c text).StylesBelow n :=
  h.editCell c fun cell => by split <;> rfl

/-- A cell that receives another one keeps its style, or gets that of the other. -/
theorem setCell (h : s.StylesBelow n) (c : CellRef) {cell : Cell} (mode : CopyMode)
    (hcell : ∀ i ∈ cell.style, i < n) : (s.setCell c cell mode).StylesBelow n := by
  refine h.updateCell c ?_
  cases mode with
  | all | format => exact hcell
  | text => exact h.style_getD c

theorem clearCell (h : s.StylesBelow n) (mode : ClearMode) (c : CellRef) :
    (s.clearCell mode c).StylesBelow n := by
  intro c' cell' hcell' i hi
  rw [cell?_clearCell] at hcell'
  split at hcell'
  · obtain ⟨cell, hcell, hcleared⟩ := Option.bind_eq_some_iff.1 hcell'
    refine h c cell hcell i ?_
    unfold cleared at hcleared
    split at hcleared
    · cases mode <;> cases hcleared
      · exact hi
      · cases hi
      · exact hi
    · cases hcleared
      exact hi
  · exact h c' cell' hcell' i hi

/-! ## Many cells -/

theorem clearCells (h : s.StylesBelow n) (mode : ClearMode) (r : Range) :
    (s.clearCells mode r).StylesBelow n :=
  h.foldl fun _ c _ hs => hs.clearCell mode c

theorem typeLine (h : s.StylesBelow n) (row col : Nat) (ts : List String) :
    (s.typeLine row col ts).StylesBelow n := by
  induction ts generalizing s col with
  | nil => exact h
  | cons t ts ih => exact ih (h.setText _ t) _

theorem typeBlock (h : s.StylesBelow n) (c : CellRef) (lines : List (List String)) :
    (s.typeBlock c lines).StylesBelow n := by
  induction lines generalizing s c with
  | nil => exact h
  | cons line lines ih => exact ih (h.typeLine _ _ line) _

theorem copyBlock (h : s.StylesBelow n) (src dst : Range) (mode : CopyMode) (series : Bool) :
    (s.copyBlock src dst mode series).1.StylesBelow n := by
  refine h.foldl fun s' w hw hs' => hs'.setCell w.1 mode ?_
  -- A copy has the style of its source.
  obtain ⟨x⟩ := mem_copies_iff.1 hw
  rw [x.copy]
  exact h x.c x.cell x.cell_eq

theorem moveBlock (h : s.StylesBelow n) (src dst : Range) :
    (s.moveBlock src dst).StylesBelow n := by
  unfold Rows.moveBlock
  split
  · exact h
  have hremoved : (s.removeCells src).StylesBelow n := by
    intro c cell hcell
    rw [cell?_removeCells] at hcell
    split at hcell
    · cases hcell
    · exact h c cell hcell
  exact hremoved.foldl fun s' w hw hs' =>
    hs'.updateCell _ (h w.1 w.2 (mem_cellsIn_iff.1 hw).1)

/-! ## Rows -/

theorem editRow (h : s.StylesBelow n) (i : Nat) {edit : Row → Row}
    (hedit : ∀ r, (edit r).cells = r.cells) : (s.editRow i edit).StylesBelow n :=
  h.of_cells (cell?_editRow_of_cells hedit)

theorem setHidden (h : s.StylesBelow n) (i : Nat) (hidden : Bool) :
    (s.setHidden i hidden).StylesBelow n :=
  h.editRow i fun _ => rfl

end StylesBelow

end Rows

/-- An edit of lines takes the styles along. -/
theorem LineEdit.stylesBelow_apply {n : Nat} {s : Rows} (e : LineEdit) (h : s.StylesBelow n) :
    (e.apply s).StylesBelow n := by
  intro c' cell' hcell'
  obtain ⟨c, cell, -, -, hcell, rfl⟩ := exists_of_cell?_apply hcell'
  exact h c cell hcell

end Worksheet
