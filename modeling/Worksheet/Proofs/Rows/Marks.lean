import Worksheet.Proofs.Address.Rectangle
import Worksheet.Proofs.SparseMap
import Worksheet.Rows.Transfer

/-!
# Cells After a Change

What is stored at a place after a cell was changed, and which merges the cells
say that they anchor.

A change goes through a row of the store and then through a cell of the row.
Both are sparse, so every change is followed by one question, whether the place
is the one that was changed, and these lemmas answer it once for each way of
changing a cell. The mark of a cell is the span of the merge it anchors. Most
changes leave marks alone, whether or not they store cells that were not there.

## Main definitions

* `Rows.mark`: The span of the merge that a cell anchors.
* `Rows.SameMarks`: Two stores with the same marks.

## Theorems

* `cell?_updateCell`, `cell?_modifyCell`, `cell?_clearCell`: One cell changed.
* `cell?_clearCells`: A range cleared.
* `SameMarks.foldl`: Many changes that leave marks alone.
-/

namespace Worksheet

namespace Rows

/-- The span of the merge that a cell anchors, if it anchors one. -/
def mark (s : Rows) (c : CellRef) : Option Span := (s.cell? c).bind Cell.merge

/-- Do two stores have the same marks? -/
def SameMarks (s s' : Rows) : Prop := ∀ c, s'.mark c = s.mark c

namespace SameMarks

theorem refl (s : Rows) : SameMarks s s := fun _ => rfl

theorem trans {s s' s'' : Rows} (h : SameMarks s s') (h' : SameMarks s' s'') : SameMarks s s'' :=
  fun c => (h' c).trans (h c)

theorem foldl {α : Type} {f : Rows → α → Rows} (h : ∀ s a, SameMarks s (f s a)) (as : List α)
    (s : Rows) : SameMarks s (as.foldl f s) := by
  induction as generalizing s with
  | nil => exact refl s
  | cons a as ih => exact (h s a).trans (ih (f s a))

end SameMarks

/-! ## One cell -/

theorem cell?_editRow (s : Rows) (i : Nat) (edit : Row → Row) (c : CellRef) :
    (s.editRow i edit).cell? c =
      if c.row = i then (edit ((s.row? i).getD {})).cells.get? c.col else s.cell? c := by
  simp only [cell?, row?, editRow, SparseMap.get?_update]
  by_cases hrow : c.row = i <;> simp [hrow]

/-- A row that is not stored is like one without cells. -/
theorem get?_getD (s : Rows) (c : CellRef) :
    ((s.row? c.row).getD {}).cells.get? c.col = s.cell? c := by
  unfold cell?
  cases s.row? c.row <;> rfl

/-- What a row is like apart from its cells is no matter. -/
theorem cell?_editRow_of_cells {s : Rows} {i : Nat} {edit : Row → Row}
    (h : ∀ r, (edit r).cells = r.cells) (c : CellRef) : (s.editRow i edit).cell? c = s.cell? c := by
  rw [cell?_editRow]
  split
  · rename_i hrow
    rw [h, ← hrow, get?_getD]
  · rfl

theorem cell?_updateCell (s : Rows) (c c' : CellRef) (edit : Option Cell → Cell) :
    (s.updateCell c edit).cell? c' = if c' = c then some (edit (s.cell? c)) else s.cell? c' := by
  rw [updateCell, cell?_editRow]
  by_cases hrow : c'.row = c.row
  · rw [if_pos hrow, SparseMap.get?_update, get?_getD, ← hrow, get?_getD]
    by_cases hcol : c'.col = c.col
    · have hc : c' = c := by
        obtain ⟨row, col⟩ := c
        obtain ⟨row', col'⟩ := c'
        simp_all
      rw [if_pos hcol, if_pos hc]
    · rw [if_neg hcol, if_neg fun hc => hcol (congrArg CellRef.col hc)]
  · rw [if_neg hrow, if_neg fun hc => hrow (congrArg CellRef.row hc)]

theorem cell?_setCell (s : Rows) (c c' : CellRef) (cell : Cell) (mode : CopyMode) :
    (s.setCell c cell mode).cell? c' =
      if c' = c then some (cell.receive mode (s.cell? c)) else s.cell? c' :=
  cell?_updateCell s c c' _

theorem cell?_editCell (s : Rows) (c c' : CellRef) (edit : Cell → Cell) :
    (s.editCell c edit).cell? c' =
      if c' = c then some (edit ((s.cell? c).getD {})) else s.cell? c' :=
  cell?_updateCell s c c' _

theorem cell?_modifyCell (s : Rows) (c c' : CellRef) (edit : Cell → Cell) :
    (s.modifyCell c edit).cell? c' = if c' = c then (s.cell? c).map edit else s.cell? c' := by
  simp only [cell?, row?, modifyCell, SparseMap.get?_modify]
  obtain ⟨row, col⟩ := c
  obtain ⟨row', col'⟩ := c'
  by_cases hrow : row' = row
  · subst hrow
    cases s.rows.get? row' with
    | none => simp
    | some r => simp [SparseMap.get?_modify]
  · simp [hrow]

/-- What is left of a cell when part of it is cleared. -/
def cleared (mode : ClearMode) (cell : Cell) : Option Cell :=
  if cell.editable then cell.clear mode else some cell

theorem cell?_clearCell (s : Rows) (mode : ClearMode) (c c' : CellRef) :
    (s.clearCell mode c).cell? c' =
      if c' = c then (s.cell? c).bind (cleared mode) else s.cell? c' := by
  unfold clearCell cleared
  split
  · rename_i cell hcell
    by_cases hedit : cell.editable = true
    · rw [if_pos hedit]
      split
      · rename_i rest hrest
        rw [cell?_editCell]
        simp [hcell, hedit, hrest]
      · rename_i hrest
        rw [cell?_editRow]
        obtain ⟨row, col⟩ := c
        obtain ⟨row', col'⟩ := c'
        by_cases hrow : row' = row
        · subst hrow
          rw [if_pos rfl, SparseMap.get?_erase, get?_getD s ⟨row', col'⟩]
          simp [hcell, hedit, hrest]
        · simp [hrow]
    · rw [if_neg hedit]
      split
      · rename_i hc
        rw [hc, hcell, Option.bind_some, if_neg hedit]
      · rfl
  · rename_i hcell
    split
    · rename_i hc
      rw [hc, hcell, Option.bind_none]
    · rfl

/-- Clearing again changes nothing. -/
theorem cleared_bind_cleared (mode : ClearMode) (cell : Option Cell) :
    (cell.bind (cleared mode)).bind (cleared mode) = cell.bind (cleared mode) := by
  cases cell with
  | none => rfl
  | some cell =>
    by_cases hedit : cell.editable = true
    · cases mode <;> simp [cleared, Cell.clear, hedit]
    · simp [cleared, hedit]

theorem cell?_foldl_clearCell (mode : ClearMode) (cs : List CellRef) (s : Rows) (c : CellRef) :
    (cs.foldl (fun s c => s.clearCell mode c) s).cell? c =
      if c ∈ cs then (s.cell? c).bind (cleared mode) else s.cell? c := by
  induction cs generalizing s with
  | nil => simp
  | cons c' cs ih =>
    rw [List.foldl_cons, ih, cell?_clearCell]
    by_cases hc : c = c'
    · subst hc
      simp only [if_true, cleared_bind_cleared, ite_self, List.mem_cons, true_or]
    · simp [hc]

theorem cell?_clearCells (s : Rows) (mode : ClearMode) (r : Range) (c : CellRef) :
    (s.clearCells mode r).cell? c =
      if r.mem c then (s.cell? c).bind (cleared mode) else s.cell? c := by
  rw [clearCells, cell?_foldl_clearCell]
  simp only [Range.mem_cells_iff]

/-- All cells are those that are stored. -/
theorem mem_cells_iff {s : Rows} {c : CellRef} {cell : Cell} :
    (c, cell) ∈ s.cells ↔ s.cell? c = some cell := by
  unfold cells cell? row?
  simp only [List.mem_flatMap, List.mem_map, Prod.mk.injEq]
  constructor
  · rintro ⟨e, he, f, hf, rfl, rfl⟩
    have hrow : s.rows.get? e.1 = some e.2 := SparseMap.get?_eq_some_iff.2 he
    simp only [hrow]
    exact SparseMap.get?_eq_some_iff.2 hf
  · intro h
    split at h
    · rename_i r hr
      exact ⟨(c.row, r), SparseMap.get?_eq_some_iff.1 hr, (c.col, cell),
        SparseMap.get?_eq_some_iff.1 h, rfl, rfl⟩
    · cases h

/-! ## Marks that stay -/

theorem sameMarks_editRow {s : Rows} {i : Nat} {edit : Row → Row}
    (h : ∀ r, (edit r).cells = r.cells) : SameMarks s (s.editRow i edit) := fun c => by
  rw [mark, mark, cell?_editRow_of_cells h]

theorem sameMarks_editCell {s : Rows} {c : CellRef} {edit : Cell → Cell}
    (h : ∀ cell, (edit cell).merge = cell.merge) : SameMarks s (s.editCell c edit) := by
  intro c'
  unfold mark
  rw [cell?_editCell]
  split
  · rename_i hc
    rw [hc, Option.bind_some, h]
    cases s.cell? c <;> rfl
  · rfl

theorem sameMarks_setText (s : Rows) (c : CellRef) (text : String) :
    SameMarks s (s.setText c text) :=
  sameMarks_editCell fun cell => by split <;> rfl

theorem sameMarks_typeLine (s : Rows) (row col : Nat) (ts : List String) :
    SameMarks s (s.typeLine row col ts) := by
  induction ts generalizing s col with
  | nil => exact .refl s
  | cons t ts ih => exact (sameMarks_setText s _ t).trans (ih _ _)

theorem sameMarks_typeBlock (s : Rows) (c : CellRef) (lines : List (List String)) :
    SameMarks s (s.typeBlock c lines) := by
  induction lines generalizing s c with
  | nil => exact .refl s
  | cons line lines ih => exact (sameMarks_typeLine s _ _ line).trans (ih _ _)

theorem sameMarks_setHidden (s : Rows) (i : Nat) (hidden : Bool) :
    SameMarks s (s.setHidden i hidden) :=
  sameMarks_editRow fun _ => rfl

theorem sameMarks_unhide (s : Rows) (i : Nat) : SameMarks s (s.unhide i) :=
  SameMarks.foldl (fun s j => sameMarks_setHidden s j false) _ s

end Rows

end Worksheet
