import Worksheet.Proofs.Rows.Transfer
import Worksheet.Proofs.Sheet.Agreement

/-!
# Texts After a Change

Which text a cell has after cells were changed, and what a lock does for it.

Typing and clearing ask whether a cell is locked and leave it alone if it is, so a
locked cell keeps its text however many of them follow. Copying and moving do not
ask. What they leave at a place is the text that was brought there, if a cell was,
and what they do besides is about marks and not about texts.

## Main definitions

* `Rows.text?`: The text of a cell.
* `Rows.SameTexts`: Two stores with the same cells, as far as texts go.
* `Rows.KeepsLocked`: A change that leaves the texts of locked cells alone.
* `Rows.copied?`, `Rows.moved?`: The text that a transfer brings to a cell.

## Theorems

* `keepsLocked_setText`, `keepsLocked_clearCell`: Typing and clearing respect locks.
* `text?_copyBlock`, `text?_moveBlock`: The texts after a transfer.
-/

namespace Worksheet

namespace Rows

/-- The text of a cell, if it has one. -/
def text? (s : Rows) (c : CellRef) : Option String := (s.cell? c).bind Cell.text

/-! ## Marks are no texts -/

/-- Do two stores hold cells at the same places, with the same texts? -/
def SameTexts (s s' : Rows) : Prop :=
  ∀ c, (s'.cell? c).map Cell.text = (s.cell? c).map Cell.text

namespace SameTexts

variable {s s' s'' : Rows}

theorem refl (s : Rows) : SameTexts s s := fun _ => rfl

theorem trans (h : SameTexts s s') (h' : SameTexts s' s'') : SameTexts s s'' :=
  fun c => (h' c).trans (h c)

theorem foldl {α : Type} {f : Rows → α → Rows} (h : ∀ s a, SameTexts s (f s a)) (as : List α)
    (s : Rows) : SameTexts s (as.foldl f s) := by
  induction as generalizing s with
  | nil => exact refl s
  | cons a as ih => exact (h s a).trans (ih (f s a))

theorem text?_eq (h : SameTexts s s') (c : CellRef) : s'.text? c = s.text? c := by
  have hc := h c
  unfold text?
  revert hc
  cases s'.cell? c <;> cases s.cell? c <;> simp

/-- A stored cell is stored with its text. -/
theorem exists_cell (h : SameTexts s s') {c : CellRef} {cell : Cell}
    (hcell : s.cell? c = some cell) :
    ∃ cell', s'.cell? c = some cell' ∧ cell'.text = cell.text := by
  have hc := h c
  rw [hcell, Option.map_some] at hc
  exact Option.map_eq_some_iff.1 hc

end SameTexts

theorem sameTexts_modifyCell {s : Rows} {c : CellRef} {edit : Cell → Cell}
    (h : ∀ cell, (edit cell).text = cell.text) : SameTexts s (s.modifyCell c edit) := by
  intro c'
  rw [cell?_modifyCell]
  split
  · rename_i hc
    rw [hc, Option.map_map, show Cell.text ∘ edit = Cell.text from funext h]
  · rfl

/-- Taking a mark off leaves the text, whether the cell is locked or not. -/
theorem sameTexts_clearCell_merge (s : Rows) (c : CellRef) :
    SameTexts s (s.clearCell .merge c) := by
  intro c'
  rw [cell?_clearCell]
  split
  · rename_i hc
    rw [hc]
    cases s.cell? c with
    | none => rfl
    | some cell =>
      rw [Option.bind_some, cleared]
      split <;> rfl
  · rfl

/-! ## Locked cells -/

/-- Does a change leave locked cells locked, and their texts alone? -/
def KeepsLocked (s s' : Rows) : Prop :=
  ∀ c, s.IsLocked c → s'.IsLocked c ∧ s'.text? c = s.text? c

namespace KeepsLocked

variable {s s' s'' : Rows}

theorem refl (s : Rows) : KeepsLocked s s := fun _ h => ⟨h, rfl⟩

theorem trans (h : KeepsLocked s s') (h' : KeepsLocked s' s'') : KeepsLocked s s'' :=
  fun c hc => ⟨(h' c (h c hc).1).1, (h' c (h c hc).1).2.trans (h c hc).2⟩

theorem foldl {α : Type} {f : Rows → α → Rows} (h : ∀ s a, KeepsLocked s (f s a)) (as : List α)
    (s : Rows) : KeepsLocked s (as.foldl f s) := by
  induction as generalizing s with
  | nil => exact refl s
  | cons a as ih => exact (h s a).trans (ih (f s a))

/-- It is enough that a locked cell stays as it is. -/
theorem of_cell?_eq (h : ∀ c, s.IsLocked c → s'.cell? c = s.cell? c) : KeepsLocked s s' := by
  intro c hc
  have hcell := h c hc
  refine ⟨?_, ?_⟩
  · rw [IsLocked, hcell]
    exact hc
  · rw [text?, hcell, text?]

end KeepsLocked

theorem keepsLocked_setText (s : Rows) (c : CellRef) (text : String) :
    KeepsLocked s (s.setText c text) := by
  refine .of_cell?_eq fun c' ⟨cell, hcell, hlocked⟩ => ?_
  rw [setText, cell?_editCell]
  split
  · rename_i hc
    subst hc
    rw [hcell, Option.getD_some, hlocked]
    rfl
  · rfl

theorem keepsLocked_clearCell (s : Rows) (mode : ClearMode) (c : CellRef) :
    KeepsLocked s (s.clearCell mode c) := by
  refine .of_cell?_eq fun c' ⟨cell, hcell, hlocked⟩ => ?_
  rw [cell?_clearCell]
  split
  · rename_i hc
    subst hc
    rw [hcell, Option.bind_some, cleared, hlocked]
    rfl
  · rfl

theorem keepsLocked_clearCells (s : Rows) (mode : ClearMode) (r : Range) :
    KeepsLocked s (s.clearCells mode r) :=
  .foldl (fun s c => keepsLocked_clearCell s mode c) r.cells s

theorem keepsLocked_typeLine (s : Rows) (row col : Nat) (ts : List String) :
    KeepsLocked s (s.typeLine row col ts) := by
  induction ts generalizing s col with
  | nil => exact .refl s
  | cons t ts ih => exact (keepsLocked_setText s _ t).trans (ih _ _)

theorem keepsLocked_typeBlock (s : Rows) (c : CellRef) (lines : List (List String)) :
    KeepsLocked s (s.typeBlock c lines) := by
  induction lines generalizing s c with
  | nil => exact .refl s
  | cons line lines ih => exact (keepsLocked_typeLine s _ _ line).trans (ih _ _)

/-! ## Transfers -/

section

variable (s : Rows) (src dst : Range)

/-- The text of the cell that a copy brings to a place. A copy of the formats brings no
    text, and nothing is brought where the source has no cell. -/
def copied? (mode : CopyMode) (series : Bool) (c : CellRef) : Option (Option String) :=
  if mode = .format then none
  else ((s.copies src dst series).find? fun w => w.1 = c).map fun w => w.2.text

/-- The text of the cell that a move brings to a place. A cell of the source to which
    nothing is brought is taken away, unless nothing is moved at all. -/
def moved? (c : CellRef) : Option (Option String) :=
  if src.right + 1 = Address.gridLimit then none
  else match (s.cellsIn src).find? fun w => movedTo src dst w.1 = c with
  | some w => some w.2.text
  | none => if src.mem c then some none else none

/-- A cell has the text that was copied to it, and otherwise the one it had. -/
theorem text?_copyBlock (mode : CopyMode) (series : Bool) (c : CellRef) :
    (s.copyBlock src dst mode series).1.text? c =
      (s.copied? src dst mode series c).getD (s.text? c) := by
  unfold copied?
  cases hfind : (s.copies src dst series).find? fun w => w.1 = c with
  | none =>
    have hnone : ∀ w ∈ s.copies src dst series, w.1 ≠ c := by simpa using hfind
    rw [text?, cell?_copyBlock_of_not_mem hnone, ← text?]
    split <;> rfl
  | some w =>
    have hw : w.1 = c := by simpa using List.find?_some hfind
    subst hw
    rw [text?, cell?_copyBlock_of_mem (List.mem_of_find?_eq_some hfind), Option.bind_some]
    cases mode with
    | all | text => rfl
    | format =>
      rw [if_pos rfl, Option.getD_none, text?]
      cases s.cell? w.1 <;> rfl

end

/-- A cell has the text that was moved to it, or lost its own, or is as it was. Marks may
    have been taken off before. -/
theorem text?_moveBlock {s s' : Rows} (h : SameTexts s s') (src dst : Range) (c : CellRef) :
    (s'.moveBlock src dst).text? c = (s.moved? src dst c).getD (s.text? c) := by
  unfold moved?
  by_cases hright : src.right + 1 = Address.gridLimit
  · rw [if_pos hright, moveBlock_of_last hright, Option.getD_none, h.text?_eq]
  rw [if_neg hright]
  cases hfind : (s.cellsIn src).find? fun w => movedTo src dst w.1 = c with
  | some w =>
    obtain ⟨hcell, hmem⟩ := mem_cellsIn_iff.1 (List.mem_of_find?_eq_some hfind)
    have hw : movedTo src dst w.1 = c := by simpa using List.find?_some hfind
    obtain ⟨cell, hcell', htext⟩ := h.exists_cell hcell
    rw [← hw, text?, cell?_moveBlock_of_mem hright hcell' hmem]
    exact htext
  | none =>
    have hnone : ∀ w ∈ s.cellsIn src, movedTo src dst w.1 ≠ c := by simpa using hfind
    have hnot (c' : CellRef) (cell' : Cell) (hcell' : s'.cell? c' = some cell')
        (hmem : src.mem c' = true) : movedTo src dst c' ≠ c := by
      have hstored := h c'
      rw [hcell', Option.map_some] at hstored
      obtain ⟨cell, hcell, -⟩ := Option.map_eq_some_iff.1 hstored.symm
      exact hnone (c', cell) (mem_cellsIn_iff.2 ⟨hcell, hmem⟩)
    rw [text?, cell?_moveBlock_of_not_mem hright hnot]
    by_cases hmem : src.mem c = true
    · rw [if_pos hmem, if_pos hmem]
      rfl
    · rw [if_neg hmem, if_neg hmem]
      exact h.text?_eq c

end Rows

end Worksheet
