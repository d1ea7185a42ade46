import Worksheet.Proofs.Sheet.Mirror

/-!
# Edits of Lines Between Mirror Images

That inserting and deleting lines keeps the registry and the marks mirror images of
each other.

An edit takes a merge and its first cell to the same place, and where it goes through
a merge it changes the span of the merge and the mark alike. Locked cells are moved
like all others, so they make no difference. The edge of the grid makes one. A merge
that would reach past it leaves the registry, and its first cell may lie well before
the edge and keeps its mark. So an insertion must leave every merge on the grid, and
a deletion does so by itself.

The number of lines makes another one. It is read as a signed number, so too many lines
that are inserted take merges away like lines that are deleted, and too many lines that
are deleted push merges on.

## Main definitions

* `Sheet.CanInsert`: Insertions that leave all that is stored on the grid.
* `Sheet.deletedCount`: The number of lines that a deletion takes out.

## Theorems

* `Sheet.lines_mirror`: Every such insertion and deletion keeps the mirror image.
* `Sheet.lines_mirror_off_grid`: Except where a merge is pushed off the grid, or there are
  too many lines.
-/

namespace Worksheet

open Address

namespace Sheet

variable {s s' : Sheet} {e : LineEdit}

/-- Can lines be inserted with the numbers that indices have? Their number is read as itself,
    and all that is stored stays on the grid. -/
structure CanInsert (s : Sheet) (axis : Axis) (index n : Nat) : Prop where
  feasible : (LineEdit.insert axis index n).Feasible s.rows
  columns : axis = .column → (s.cols.insert index n).Below gridLimit
  merges : ∀ r ∈ s.merges.ranges, index ≤ r.lastLine axis → r.lastLine axis + n < gridLimit

instance (s : Sheet) (axis : Axis) (index n : Nat) : Decidable (s.CanInsert axis index n) :=
  decidable_of_iff ((LineEdit.insert axis index n).Feasible s.rows ∧
      (axis = .column → (s.cols.insert index n).Below gridLimit) ∧
      ∀ r ∈ s.merges.ranges, index ≤ r.lastLine axis → r.lastLine axis + n < gridLimit)
    ⟨fun h => ⟨h.1, h.2.1, h.2.2⟩, fun h => ⟨h.feasible, h.columns, h.merges⟩⟩

/-- The number of lines between two lines, both included, as far as there are any. -/
def deletedCount (s : Sheet) (axis : Axis) (a b : Nat) : Nat :=
  min (max a b) (s.lineCount axis - 1) - min a b + 1

theorem Edited.mirrors (h : Edited s e s') (hs : Mirrors s.merges s.rows) (hn : e.distance ≠ 0)
    (hroom : e.HasRoom s.merges) : Mirrors s'.merges s'.rows := by
  rw [h.merges, h.rows]
  exact hs.edited hn hroom

theorem mirrors_commit {change : Sheet → Sheet} (h : Mirrors s.merges s.rows)
    (hchange : Mirrors (change s.recorded).merges (change s.recorded).rows) :
    Mirrors (s.commit change).1.merges (s.commit change).1.rows :=
  commit_keeps (P := fun d => Mirrors d.merges d.rows) h hchange

/-- When merges and marks mirror each other, they do so after every insertion of lines that
    leaves all that is stored on the grid, and after every deletion of fewer lines than the
    first half of the grid has, whether the first cells of the merges are locked or not. -/
theorem lines_mirror (s : Sheet) (axis : Axis) (h : Mirrors s.merges s.rows)
    (hgrid : s.merges.Below gridLimit) (hcount : s.lineCount axis < gridLimit) :
    (∀ index n, s.CanInsert axis index n →
      Mirrors (s.insertAt axis index n).1.merges (s.insertAt axis index n).1.rows) ∧
    ∀ a b, s.deletedCount axis a b < Address.reach →
      Mirrors (s.deleteAt axis a b).1.merges (s.deleteAt axis a b).1.rows := by
  refine ⟨fun index n hinsert => ?_, fun a b hfew => ?_⟩
  · unfold insertAt
    split
    · exact h
    · have hroom : (LineEdit.insert axis index n).HasRoom s.merges :=
        ⟨hinsert.feasible.reach, hgrid, fun r hr =>
          LineEdit.newLast_insert_lt ((hgrid r hr).lastLine axis) (hinsert.merges r hr)⟩
      have hedited := (edited_insertLines hroom.reach s.recorded).mirrors h
        (Int.natCast_ne_zero.2 ‹_›) hroom
      exact mirrors_commit h hedited
  · simp only [deleteAt]
    split
    · exact h
    · rename_i hsome
      have hspan : min a b ≤ min (max a b) (s.lineCount axis - 1) :=
        Nat.not_lt.1 fun hlt => hsome (.inl hlt)
      have hreach : (LineEdit.delete axis _ _ hspan).InReach := ⟨hfew, by omega⟩
      have hedited := (edited_deleteLines hreach s.recorded).mirrors h
        (LineEdit.distance_delete_ne_zero hspan) (LineEdit.hasRoom_delete hreach hgrid)
      exact mirrors_commit h hedited

/-- Rows are put into a merge whose first cell is locked, and rows are taken from it, while
    a merge beside it is moved and then loses its first row. -/
theorem lines_mirror_locked :
    let s := (Sheet.new "" {}).runAll [.select (.between ⟨1, 0⟩ ⟨3, 1⟩), .merge,
      .select (.single ⟨1, 0⟩), .editSelected (.editable false),
      .select (.between ⟨2, 3⟩ ⟨3, 3⟩), .merge]
    (s.rows.IsLocked ⟨1, 0⟩ ∧ (s.insertAt .row 2 3).2 = .applied ∧
      (s.deleteAt .row 2 2).2 = .applied) ∧
    Mirrors (s.insertAt .row 2 3).1.merges (s.insertAt .row 2 3).1.rows ∧
      Mirrors (s.deleteAt .row 2 2).1.merges (s.deleteAt .row 2 2).1.rows := by
  intro s
  have hs : Mirrors s.merges s.rows :=
    mirrors_of_cells (by decide) (by decide) (by decide)
  obtain ⟨hinsert, hdelete⟩ := lines_mirror s .row hs (by decide) (by decide)
  have hlocked : (s.rows.cell? ⟨1, 0⟩).map Cell.editable = some false := by decide
  exact ⟨⟨Option.map_eq_some_iff.1 hlocked, by decide, by decide⟩,
    hinsert 2 3 (by decide), hdelete 2 2 (by decide)⟩

/-- A merge of two rows, the last of which is the last but one of the grid, is pushed on by
    two rows. It leaves the registry, and its mark is on the last row of the grid. A merge of
    four cells leaves it as well when as many rows are inserted as the first half of the grid
    has, although its cells stay on the grid. And so does a merge that a deletion leaves
    with 2 ^ 64 cells, which are counted as none. -/
theorem lines_mirror_off_grid :
    let s := (Sheet.new "" {}).runAll
      [.select (.between ⟨gridLimit - 3, 0⟩ ⟨gridLimit - 2, 0⟩), .merge]
    let t := (Sheet.new "" {}).runAll [.select (.between ⟨0, 0⟩ ⟨1, 1⟩), .merge]
    let anchor : SparseMap Cell := .ofList [(0, { merge := some ⟨UInt32.size, UInt32.size - 1⟩ })]
    let large := (Sheet.new "" {}).restore
      { merges := ⟨[.spanning .origin UInt32.size (UInt32.size - 1)]⟩
        rows := { len := 100, rows := .ofList [(0, { cells := anchor })] } }
    ((Mirrors s.merges s.rows ∧ (s.insertAt .row 0 2).2 = .applied) ∧
      ¬Mirrors (s.insertAt .row 0 2).1.merges (s.insertAt .row 0 2).1.rows) ∧
    ((Mirrors t.merges t.rows ∧ (t.insertAt .row 0 Address.reach).2 = .applied) ∧
      ¬Mirrors (t.insertAt .row 0 Address.reach).1.merges
        (t.insertAt .row 0 Address.reach).1.rows) ∧
    (Mirrors large.merges large.rows ∧ (large.deleteAt .row 5 5).2 = .applied) ∧
      ¬Mirrors (large.deleteAt .row 5 5).1.merges (large.deleteAt .row 5 5).1.rows := by
  intro s t anchor large
  have hlost {m : Merges} {rows : Rows} (c : CellRef) (span : Span)
      (hmark : rows.mark c = some span) (hnone : m.ranges = []) : ¬Mirrors m rows := by
    intro h
    have hregistered := h.marks c span hmark
    rw [hnone] at hregistered
    cases hregistered
  have hs : Mirrors s.merges s.rows :=
    mirrors_of_cells (by decide) (by decide) (by decide)
  have ht : Mirrors t.merges t.rows :=
    mirrors_of_cells (by decide) (by decide) (by decide)
  have hlarge : Mirrors large.merges large.rows :=
    mirrors_of_cells (by decide) (by decide) (by decide)
  refine ⟨⟨⟨hs, by decide⟩, hlost ⟨gridLimit - 1, 0⟩ ⟨1, 0⟩ ?_ ?_⟩,
    ⟨⟨ht, by decide⟩, hlost ⟨Address.reach, 0⟩ ⟨1, 1⟩ ?_ ?_⟩,
    ⟨hlarge, by decide⟩, hlost .origin ⟨UInt32.size - 1, UInt32.size - 1⟩ ?_ ?_⟩
  all_goals decide

end Sheet

end Worksheet
