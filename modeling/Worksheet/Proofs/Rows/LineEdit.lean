import Worksheet.Proofs.Address.Lines
import Worksheet.Proofs.Grid
import Worksheet.Proofs.Rows.Marks
import Worksheet.Rows.Structure

/-!
# Edits of Lines

Where the cells go when lines are inserted or deleted.

An insertion keeps every line and a deletion those outside of it, and both move
the lines that stay by one function that is strictly increasing on them. The
store is relabelled by that function, whichever the axis, so a cell that stays
is found in its new place, and nothing else is found there.

## Main definitions

* `LineEdit`: An insertion or a deletion of lines.
* `LineEdit.relabel`, `LineEdit.Keeps`: Where cells go, and which of them stay.
* `LineEdit.InReach`: Edits of so few lines that references are moved as far as lines.
* `LineEdit.Feasible`: Edits in reach that move nothing past the grid.

## Theorems

* `LineEdit.newLine_inj`: Lines that stay are not moved onto each other.
* `LineEdit.cell?_apply`: A cell that stays is found in its new place.
* `LineEdit.exists_of_cell?_apply`: A cell that is found is one that stays.
-/

namespace Worksheet

/-- Lines inserted before a line, or all lines between two lines deleted. -/
inductive LineEdit where
  | insert (axis : Axis) (first n : Nat)
  | delete (axis : Axis) (first last : Nat) (h : first ≤ last)

namespace LineEdit

/-- The rows after the edit. -/
def apply : LineEdit → Rows → Rows
  | .insert .row first n, s => s.insertRows first n
  | .insert .column first n, s => s.insertColumns first n
  | .delete .row first last _, s => s.deleteRows first last
  | .delete .column first last _, s => s.deleteColumns first last

/-- The axis of the lines. -/
def axis : LineEdit → Axis
  | .insert axis _ _ => axis
  | .delete axis _ _ _ => axis

/-- Where a line is after the edit. -/
def newLine : LineEdit → Nat → Nat
  | .insert _ first n, i => if first ≤ i then i + n else i
  | .delete _ first last _, i => if last < i then i - (last + 1 - first) else i

/-- Does a line stay? -/
def KeepsLine : LineEdit → Nat → Prop
  | .insert _ _ _, _ => True
  | .delete _ first last _, i => i < first ∨ last < i

/-- Where a cell is after the edit. -/
def relabel (e : LineEdit) (c : CellRef) : CellRef := c.mapLine e.axis e.newLine

/-- Does a cell stay? -/
def Keeps (e : LineEdit) (c : CellRef) : Prop := e.KeepsLine (c.line e.axis)

/-- How far lines are moved along the axis. -/
def distance : LineEdit → Int
  | .insert _ _ n => n
  | .delete _ first last _ => -((last - first + 1 : Nat) : Int)

/-- What references are moved by: the distance as a signed number. -/
def displacement (e : LineEdit) : Displacement :=
  e.axis.displacement (Address.signed e.distance)

/-- Are the lines so few that their number is read as itself, and are deleted lines on
    the grid? -/
def InReach : LineEdit → Prop
  | .insert _ _ n => n < Address.reach
  | .delete _ first last _ => last - first + 1 < Address.reach ∧ last + 1 < Address.gridLimit

instance : (e : LineEdit) → Decidable e.InReach
  | .insert _ _ n => inferInstanceAs (Decidable (n < _))
  | .delete _ _ _ _ => inferInstanceAs (Decidable (_ ∧ _))

/-- References are moved as far as lines are, when there are so few. -/
theorem InReach.signed_distance {e : LineEdit} (h : e.InReach) :
    Address.signed e.distance = e.distance := by
  cases e with
  | insert axis first n => exact Address.signed_natCast h
  | delete axis first last hle => exact Address.signed_neg_natCast h.1

/-- Can the edit be made with indices of sixty-four bits? References are moved as far as
    lines then, and no line is moved past the grid. -/
structure Feasible (e : LineEdit) (s : Rows) : Prop where
  reach : e.InReach
  grid : (e.apply s).Below Address.gridLimit

instance (e : LineEdit) (s : Rows) : Decidable (e.Feasible s) :=
  decidable_of_iff (e.InReach ∧ (e.apply s).Below Address.gridLimit)
    ⟨fun h => ⟨h.1, h.2⟩, fun h => ⟨h.reach, h.grid⟩⟩

/-- Which references are moved. -/
def moves : LineEdit → CellRef → Bool
  | .insert axis first _, c => first ≤ c.line axis
  | .delete axis _ last _, c => last < c.line axis

/-- Lines that stay are not moved onto each other. -/
theorem newLine_inj (e : LineEdit) {i j : Nat} (hi : e.KeepsLine i) (hj : e.KeepsLine j)
    (h : e.newLine i = e.newLine j) : i = j := by
  cases e with
  | insert axis first n =>
    simp only [newLine] at h
    split at h <;> split at h <;> omega
  | delete axis first last hle =>
    simp only [newLine] at h
    simp only [KeepsLine] at hi hj
    split at h <;> split at h <;> omega

/-- A line that is not moved stays. -/
theorem newLine_of_not_moves {e : LineEdit} {c : CellRef} (h : e.moves c = false) :
    e.newLine (c.line e.axis) = c.line e.axis := by
  cases e with
  | insert axis first n =>
    rw [moves, decide_eq_false_iff_not] at h
    exact if_neg h
  | delete axis first last hle =>
    rw [moves, decide_eq_false_iff_not] at h
    exact if_neg h

/-- A cell stays where it is when its line does. -/
theorem relabel_of_newLine {e : LineEdit} {c : CellRef}
    (h : e.newLine (c.line e.axis) = c.line e.axis) : e.relabel c = c := by
  unfold relabel
  cases haxis : e.axis with
  | row =>
    rw [haxis] at h
    exact congrArg (fun row => ({ c with row } : CellRef)) h
  | column =>
    rw [haxis] at h
    exact congrArg (fun col => ({ c with col } : CellRef)) h

/-- A reference that is not moved names the same cell. -/
theorem relabel_of_not_moves {e : LineEdit} {c : CellRef} (h : e.moves c = false) :
    e.relabel c = c :=
  relabel_of_newLine (newLine_of_not_moves h)

/-- A line that is moved is moved by the distance. -/
theorem newLine_of_moves {e : LineEdit} {c : CellRef} (h : e.moves c = true) :
    (e.newLine (c.line e.axis) : Int) = c.line e.axis + e.distance := by
  cases e with
  | insert axis first n =>
    have hfirst : first ≤ c.line axis := by simpa [moves] using h
    show ((if first ≤ c.line axis then c.line axis + n else c.line axis : Nat) : Int) =
      c.line axis + n
    rw [if_pos hfirst, Int.natCast_add]
  | delete axis first last hle =>
    have hlast : last < c.line axis := by simpa [moves] using h
    show ((if last < c.line axis then c.line axis - (last + 1 - first)
      else c.line axis : Nat) : Int) = c.line axis + -((last - first + 1 : Nat) : Int)
    rw [if_pos hlast]
    omega

end LineEdit

namespace Rows

theorem cell?_mapFormulas (f : List Char → List Char) (s : Rows) (c : CellRef) :
    (s.mapFormulas f).cell? c = (s.cell? c).map (mapFormula f) := by
  unfold cell? row? mapFormulas mapCells
  simp only [SparseMap.get?_mapValues]
  cases s.rows.get? c.row with
  | none => rfl
  | some r => simp only [Option.map_some, SparseMap.get?_mapValues]

theorem exists_of_cell?_mapFormulas {f : List Char → List Char} {s : Rows} {c : CellRef}
    {cell' : Cell} (h : (s.mapFormulas f).cell? c = some cell') :
    ∃ cell, s.cell? c = some cell := by
  rw [cell?_mapFormulas, Option.map_eq_some_iff] at h
  obtain ⟨cell, hcell, -⟩ := h
  exact ⟨cell, hcell⟩

/-- A cell is found again in the same column of a row that was moved. -/
theorem cell?_eq_of_row {s s' : Rows} {c c' : CellRef} (hcol : c'.col = c.col)
    (h : s'.rows.get? c'.row = s.rows.get? c.row) : s'.cell? c' = s.cell? c := by
  unfold cell? row?
  rw [h, hcol]

/-- A cell is found again in a row whose cells were moved. -/
theorem cell?_mapRowCells {s : Rows} {f : SparseMap Cell → SparseMap Cell} {c c' : CellRef}
    (hrow : c'.row = c.row) (h : ∀ m : SparseMap Cell, (f m).get? c'.col = m.get? c.col) :
    (s.mapRowCells f).cell? c' = s.cell? c := by
  unfold cell? row? mapRowCells
  simp only [SparseMap.get?_mapValues]
  rw [hrow]
  cases s.rows.get? c.row with
  | none => rfl
  | some r =>
    simp only [Option.map_some]
    rw [h]

theorem exists_of_cell?_mapRowCells {s : Rows} {f : SparseMap Cell → SparseMap Cell} {c : CellRef}
    {cell : Cell} (h : (s.mapRowCells f).cell? c = some cell) :
    ∃ m : SparseMap Cell, (f m).get? c.col = some cell := by
  unfold cell? row? mapRowCells at h
  simp only [SparseMap.get?_mapValues] at h
  cases hrow : s.rows.get? c.row with
  | none =>
    rw [hrow] at h
    cases h
  | some r =>
    rw [hrow] at h
    exact ⟨r.cells, h⟩

theorem exists_row_of_cell? {s : Rows} {c : CellRef} {cell : Cell} (h : s.cell? c = some cell) :
    ∃ r, s.rows.get? c.row = some r := by
  unfold cell? row? at h
  cases hrow : s.rows.get? c.row with
  | none =>
    rw [hrow] at h
    cases h
  | some r => exact ⟨r, rfl⟩

end Rows

namespace LineEdit

/-- What becomes of a cell that stays: the references of its formula are moved. -/
def rewriteCell (e : LineEdit) (cell : Cell) : Cell :=
  Rows.mapFormula (Address.shiftReferences e.displacement e.moves) cell

/-- A cell that stays is found in its new place. -/
theorem cell?_apply (e : LineEdit) (s : Rows) {c : CellRef} (hc : e.Keeps c) :
    (e.apply s).cell? (e.relabel c) = (s.cell? c).map e.rewriteCell := by
  -- Every edit moves the cells first, and then changes the formulas.
  have hrewrite {moved : Rows} (hmoved : moved.cell? (e.relabel c) = s.cell? c) :
      (moved.mapFormulas (Address.shiftReferences e.displacement e.moves)).cell? (e.relabel c) =
        (s.cell? c).map e.rewriteCell := by
    rw [Rows.cell?_mapFormulas, hmoved]
    rfl
  cases e with
  | insert axis first n =>
    cases axis with
    | row =>
      exact hrewrite (Rows.cell?_eq_of_row rfl (SparseMap.get?_shiftUp s.rows first n c.row))
    | column =>
      exact hrewrite (Rows.cell?_mapRowCells rfl fun m => SparseMap.get?_shiftUp m first n c.col)
  | delete axis first last h =>
    cases axis with
    | row =>
      exact hrewrite (Rows.cell?_eq_of_row rfl (SparseMap.get?_removeSpan s.rows h hc))
    | column =>
      exact hrewrite (Rows.cell?_mapRowCells rfl fun m => SparseMap.get?_removeSpan m h hc)

/-- A cell that is found is one that stays, in its new place. -/
theorem exists_of_cell?_apply {e : LineEdit} {s : Rows} {c' : CellRef} {cell' : Cell}
    (h : (e.apply s).cell? c' = some cell') :
    ∃ c cell, e.Keeps c ∧ e.relabel c = c' ∧ s.cell? c = some cell ∧
      e.rewriteCell cell = cell' := by
  -- Its line is the new place of a line that stays.
  have hrelabel : ∃ c, e.Keeps c ∧ e.relabel c = c' := by
    cases e with
    | insert axis first n =>
      cases axis with
      | row =>
        obtain ⟨cell, hcell⟩ := Rows.exists_of_cell?_mapFormulas h
        obtain ⟨r, hr⟩ := Rows.exists_row_of_cell? hcell
        obtain ⟨k, hk, -⟩ := SparseMap.exists_of_get?_shiftUp hr
        exact ⟨⟨k, c'.col⟩, trivial, congrArg (fun row => (⟨row, c'.col⟩ : CellRef)) hk⟩
      | column =>
        obtain ⟨cell, hcell⟩ := Rows.exists_of_cell?_mapFormulas h
        obtain ⟨m, hm⟩ := Rows.exists_of_cell?_mapRowCells hcell
        obtain ⟨k, hk, -⟩ := SparseMap.exists_of_get?_shiftUp hm
        exact ⟨⟨c'.row, k⟩, trivial, congrArg (fun col => (⟨c'.row, col⟩ : CellRef)) hk⟩
    | delete axis first last hle =>
      cases axis with
      | row =>
        obtain ⟨cell, hcell⟩ := Rows.exists_of_cell?_mapFormulas h
        obtain ⟨r, hr⟩ := Rows.exists_row_of_cell? hcell
        obtain ⟨k, hkeeps, hk, -⟩ := SparseMap.exists_of_get?_removeSpan hr
        exact ⟨⟨k, c'.col⟩, hkeeps, congrArg (fun row => (⟨row, c'.col⟩ : CellRef)) hk⟩
      | column =>
        obtain ⟨cell, hcell⟩ := Rows.exists_of_cell?_mapFormulas h
        obtain ⟨m, hm⟩ := Rows.exists_of_cell?_mapRowCells hcell
        obtain ⟨k, hkeeps, hk, -⟩ := SparseMap.exists_of_get?_removeSpan hm
        exact ⟨⟨c'.row, k⟩, hkeeps, congrArg (fun col => (⟨c'.row, col⟩ : CellRef)) hk⟩
  obtain ⟨c, hkeeps, rfl⟩ := hrelabel
  rw [cell?_apply e s hkeeps] at h
  obtain ⟨cell, hcell, hrewrite⟩ := Option.map_eq_some_iff.1 h
  exact ⟨c, cell, hkeeps, rfl, hcell, hrewrite⟩

/-- An edit of lines takes the marks along. -/
theorem mark_rewriteCell (e : LineEdit) (cell : Cell) :
    (e.rewriteCell cell).merge = cell.merge := rfl

end LineEdit

end Worksheet
