import Worksheet.Proofs.Sheet.Committing
import Worksheet.Proofs.Sheet.Spans

/-!
# Insertions That Are Taken Back on a Sheet

Deleting the lines that were just inserted restores the sheet.

The cells come back as the rows do, and the merges come back with their marks. What is
pushed off the grid does not come back: a reference is replaced for good, and a merge
leaves the registry.

## Main definitions

* `Sheet.Survives`: A sheet that an insertion can be taken back on.

## Theorems

* `Sheet.deleteAt_insertAt`: The sheet is as it was.
* `Sheet.deleteAt_insertAt_off_grid`: A reference that is pushed off the grid is lost.
-/

namespace Worksheet

namespace Sheet

/-- A sheet that an insertion of lines can be taken back on. Every merge has more than
    one cell and is anchored by a mark, every reference is spelled as it is written,
    and what is moved stays on the grid. A merge that is registered several times has its
    mark changed as often, and there is room for that. -/
structure Survives (s : Sheet) (axis : Axis) (first n : Nat) : Prop where
  feasible : (LineEdit.insert axis first n).Feasible s.rows
  columns : axis = .column → (s.cols.insert first n).Below Address.gridLimit
  multiple : ∀ r ∈ s.merges.ranges, r.isMultiple = true
  anchored : s.rows.Anchors s.merges
  grid : s.merges.Below Address.gridLimit
  merges : ∀ r ∈ s.merges.ranges, ((LineEdit.insert axis first n).relabel r.last).Fits
  spans : ∀ r ∈ s.merges.ranges, r.Straddles axis first →
    r.lastLine axis + s.merges.ranges.count r * n < Address.gridLimit
  references : ∀ c, isFormulaText (s.rows.content c) = true →
    ∀ w ∈ Address.references (s.rows.content c).toList,
      (LineEdit.insert axis first n).Recoverable w

/-- An edit of lines changes the text of a cell, and not its mark. -/
theorem rewriteCell_respan (e : LineEdit) (mark : Option Span → Option Span) (cell : Cell) :
    e.rewriteCell (cell.respan mark) = (e.rewriteCell cell).respan mark := rfl

/-- The columns come back as the rows do. -/
theorem columns_delete_insert {n : Nat} (hn : 0 < n) (s : Columns) (first : Nat) :
    (s.insert first n).delete first (first + n - 1) = s := by
  have hcount : s.len + n - (first + n - 1 - first + 1) = s.len := by omega
  unfold Columns.delete Columns.insert
  rw [SparseMap.removeSpan_shiftUp _ _ hn]
  exact congrArg (Columns.mk · s.cols) hcount

/-- The lines that are inserted are indices, since no more fit on the grid. -/
theorem Survives.first_add_lt {s : Sheet} {axis : Axis} {first n : Nat}
    (hs : s.Survives axis first n) (hfirst : first ≤ s.lineCount axis) :
    first + n < Address.gridLimit := by
  have hlen : s.lineCount axis + n < Address.gridLimit := by
    cases axis with
    | row => exact hs.feasible.grid.len
    | column => exact (hs.columns rfl).len
  omega

/-- A span has no more lines than there are up to the end of its range. -/
theorem lines_span_le (axis : Axis) (r : Range) : r.span.lines axis ≤ r.lastLine axis := by
  cases axis with
  | row => exact Nat.sub_le _ _
  | column => exact Nat.sub_le _ _

/-- Merges that are anchored by one mark are one merge. -/
theorem eq_of_first {rows : Rows} {m : Merges} (h : rows.Anchors m) {r r' : Range}
    (hr : r ∈ m.ranges) (hr' : r' ∈ m.ranges) (hfirst : r.first = r'.first) : r = r' := by
  have hspan : some r.span = some r'.span := by rw [← h r hr, ← h r' hr', hfirst]
  rw [← Range.spanning_span r, ← Range.spanning_span r', hfirst, Option.some.inj hspan]

section

variable {s : Sheet} {axis : Axis} {first n : Nat} (h : first ≤ first + n - 1)

/-- The mark of a cell is changed and changed back. -/
theorem respan_delete_insert (hn : 0 < n) (hs : s.Survives axis first n) {c : CellRef}
    {cell : Cell} (hcell : s.rows.cell? c = some cell) :
    respan ((s.merges.shift axis first n).2.map (Merges.undone axis n)) c
      (respan (s.merges.shift axis first n).2 ((LineEdit.insert axis first n).relabel c)
        cell.merge) = cell.merge := by
  by_cases hc : c.line axis < first
  · have hstays : (LineEdit.insert axis first n).relabel c = c :=
      (LineEdit.relabel_of_lt_start (e := .insert axis first n) hc).2
    rw [hstays]
    by_cases hanchor : ∃ change ∈ (s.merges.shift axis first n).2, change.anchor = c
    · obtain ⟨change, hchange, rfl⟩ := hanchor
      obtain ⟨⟨r, hr, hthrough, hfirst⟩, -, -⟩ := Merges.mem_changes_insert hn hchange
      have hmark := hs.anchored r hr
      rw [← hfirst, Rows.mark, hcell, Option.bind_some] at hmark
      have hspan : r.span ≠ .zero := by
        have hmultiple := Range.isMultiple_iff.1 (hs.multiple r hr)
        rw [Span.ne_zero_iff]
        simp only [Range.span]
        omega
      rw [hmark, hfirst]
      refine respan_undone (fun x hx => (Merges.mem_changes_insert hn hx).2.2) hspan ?_ ?_
      · -- A merge that begins where this one does has the same mark, so it is the same.
        have hcount := Nat.mul_le_mul_right n (Merges.countP_changes_insert_le axis first hn
          fun x hx heq => eq_of_first hs.anchored hx hr heq)
        have hroom := hs.spans r hr hthrough
        have hlines := lines_span_le axis r
        omega
      · exact Nat.lt_of_le_of_lt (lines_span_le axis.other r) ((hs.grid r hr).lastLine _)
    · rw [respan_of_not_anchor fun x hx heq => hanchor ⟨x, hx, heq⟩,
        respan_of_not_anchor fun x hx heq => ?_]
      obtain ⟨y, hy, rfl⟩ := List.mem_map.1 hx
      exact hanchor ⟨y, hy, heq⟩
  · -- No merge that is widened is anchored by a cell that is moved.
    have hmoved : first ≤ ((LineEdit.insert axis first n).relabel c).line axis := by
      have hline : ((LineEdit.insert axis first n).relabel c).line axis = c.line axis + n := by
        cases axis with
        | row => exact if_pos (Nat.not_lt.1 hc)
        | column => exact if_pos (Nat.not_lt.1 hc)
      omega
    rw [respan_of_not_anchor fun x hx heq => ?_, respan_of_not_anchor fun x hx heq => ?_]
    · have := (Merges.mem_changes_insert hn hx).2.1
      rw [heq] at this
      omega
    · obtain ⟨y, hy, rfl⟩ := List.mem_map.1 hx
      have := (Merges.mem_changes_insert hn hy).2.1
      rw [show y.anchor = c from heq] at this
      omega

/-- Every cell is as it was. -/
theorem cell?_delete_insert (hn : 0 < n) (hgrid : first + n < Address.gridLimit)
    (hs : s.Survives axis first n) (c : CellRef) :
    (((s.merges.shift axis first n).2.map (Merges.undone axis n)).foldl changeSpan
      ((LineEdit.delete axis first (first + n - 1) h).apply
        ((s.merges.shift axis first n).2.foldl changeSpan
          ((LineEdit.insert axis first n).apply s.rows)))).cell? c = s.rows.cell? c := by
  obtain ⟨hkeeps, hback⟩ := LineEdit.relabel_delete_insert axis first n h hn c
  -- The cell is found in its new place, and then in its old one.
  have hcell := LineEdit.cell?_apply (.delete axis first (first + n - 1) h)
    ((s.merges.shift axis first n).2.foldl changeSpan
      ((LineEdit.insert axis first n).apply s.rows)) hkeeps
  rw [hback] at hcell
  rw [cell?_foldl_changeSpan, hcell, cell?_foldl_changeSpan,
    LineEdit.cell?_apply (.insert axis first n) s.rows trivial]
  cases hold : s.rows.cell? c with
  | none => rfl
  | some cell =>
    simp only [Option.map_some, Option.some.injEq]
    have htext : isFormulaText cell.content = true →
        ∀ w ∈ Address.references cell.content.toList,
          (LineEdit.insert axis first n).Recoverable w := by
      have hreferences := hs.references c
      unfold Rows.content at hreferences
      rwa [hold] at hreferences
    have hrewrite := LineEdit.rewriteCell_delete_insert axis first n h hn hs.feasible.reach
      hgrid htext
    have hmark := respan_delete_insert hn hs hold
    -- The two edits change the text of the cell, and the changes of spans its mark.
    rw [rewriteCell_respan, hrewrite, Cell.respan, Cell.respan, hmark]

theorem rows_delete_insert (hn : 0 < n) (hgrid : first + n < Address.gridLimit)
    (hs : s.Survives axis first n) :
    ((s.merges.shift axis first n).2.map (Merges.undone axis n)).foldl changeSpan
      ((LineEdit.delete axis first (first + n - 1) h).apply
        ((s.merges.shift axis first n).2.foldl changeSpan
          ((LineEdit.insert axis first n).apply s.rows))) = s.rows := by
  refine Rows.eq_of_bare ?_ (cell?_delete_insert h hn hgrid hs)
  rw [bare_foldl_changeSpan]
  exact LineEdit.bare_delete_insert h hn (bare_foldl_changeSpan _ _)

theorem deleteLines_insertLines (hn : 0 < n) (hgrid : first + n < Address.gridLimit)
    (hs : s.Survives axis first n) :
    ((s.insertLines axis first n).deleteLines axis first (first + n - 1)).snapshot =
      s.snapshot := by
  have h : first ≤ first + n - 1 := by omega
  have hdistance : (LineEdit.delete axis first (first + n - 1) h).distance = -(n : Int) := by
    show -((first + n - 1 - first + 1 : Nat) : Int) = -(n : Int)
    omega
  have hmerges := Merges.shift_delete_insert hn hs.feasible.reach hgrid hs.multiple
    (fun r hr => (hs.grid r hr).count) hs.merges
  have hrows := rows_delete_insert h hn hgrid hs
  rw [insertLines_eq hs.feasible.reach,
    deleteLines_eq (LineEdit.inReach_delete axis first n h hn hs.feasible.reach hgrid), hdistance]
  simp only [snapshot, hmerges, hrows]
  cases axis with
  | row => rfl
  | column => rw [columns_delete_insert hn]

end

theorem snapshot_shiftMerges (s : Sheet) (axis : Axis) (index : Nat) (n : Int) :
    (s.shiftMerges axis index n).snapshot =
      { s.snapshot with
        merges := (s.merges.shift axis index n).1
        rows := (s.merges.shift axis index n).2.foldl changeSpan s.rows } := rfl

/-- Deleting lines goes by what is saved. -/
theorem snapshot_deleteLines {s t : Sheet} (h : s.snapshot = t.snapshot) (axis : Axis)
    (first last : Nat) :
    (s.deleteLines axis first last).snapshot = (t.deleteLines axis first last).snapshot := by
  simp only [snapshot, Snapshot.mk.injEq] at h
  unfold deleteLines
  rw [snapshot_shiftMerges, snapshot_shiftMerges]
  cases axis with
  | row => simp only [snapshot, h]
  | column => simp only [snapshot, h]

/-- Inserting lines and deleting them again restores the sheet. -/
theorem deleteAt_insertAt {s : Sheet} {axis : Axis} {first n : Nat}
    (hwritable : s.isWritable = true) (hn : 0 < n) (hlines : 0 < s.lineCount axis)
    (hfirst : first ≤ s.lineCount axis) (hs : s.Survives axis first n) :
    (s.insertAt axis first n).2 = .applied ∧
      ((s.insertAt axis first n).1.deleteAt axis first (first + n - 1)).2 = .applied ∧
      ((s.insertAt axis first n).1.deleteAt axis first (first + n - 1)).1.snapshot =
        s.snapshot := by
  have hinsert : s.insertAt axis first n = s.commit (insertLines axis first n) := by
    rw [insertAt, if_neg (by omega)]
  have happlied : (s.insertAt axis first n).2 = .applied := by
    rw [hinsert, commit_of_writable hwritable]
  -- After the insertion there are lines that are not deleted.
  have hcount : (s.insertAt axis first n).1.lineCount axis = s.lineCount axis + n := by
    rw [hinsert, commit_of_writable hwritable, insertLines_eq hs.feasible.reach]
    cases axis with
    | row => exact congrArg Rows.len (bare_foldl_changeSpan _ (s.rows.insertRows first n))
    | column => rfl
  have hdelete : (s.insertAt axis first n).1.deleteAt axis first (first + n - 1) =
      (s.insertAt axis first n).1.commit (deleteLines axis first (first + n - 1)) := by
    have hfirst' : min first (first + n - 1) = first := by omega
    have hlast' : min (max first (first + n - 1)) (s.lineCount axis + n - 1) = first + n - 1 := by
      omega
    simp only [deleteAt, hcount, hfirst', hlast']
    rw [if_neg (by omega)]
  have hwritable' : (s.insertAt axis first n).1.isWritable = true := by
    rw [hinsert, commit_of_writable hwritable, insertLines_eq hs.feasible.reach]
    exact hwritable
  rw [hdelete, commit_of_writable hwritable']
  refine ⟨happlied, rfl, ?_⟩
  have hgrid := hs.first_add_lt hfirst
  have hback := deleteLines_insertLines hn hgrid (s := s.recorded) ⟨hs.feasible, hs.columns,
    hs.multiple, hs.anchored, hs.grid, hs.merges, hs.spans, hs.references⟩
  rw [hinsert, commit_of_writable hwritable]
  -- What is recorded and reported in between is not saved.
  have hreported (t : Sheet) : (t.refreshView.emit .changed).snapshot = t.snapshot := rfl
  have hrecorded (t : Sheet) : t.recorded.snapshot = t.snapshot := rfl
  have hinserted := (hrecorded _).trans (hreported (insertLines axis first n s.recorded))
  have hdeleted := snapshot_deleteLines hinserted axis first (first + n - 1)
  exact (hreported _).trans (hdeleted.trans hback)

/-- A new sheet with a text typed into its first cell. -/
def typed (text : String) : Sheet := ((new "" {}).typeText .origin text .finished).1

/-- The sheet with the first three rows of its first two columns merged. -/
def withMerge (s : Sheet) : Sheet := (s.select ⟨0, 0, 2, 1, by decide, by decide⟩).merge.1

/-- It is so for rows that go through a merge whose first cell refers to a cell below. -/
theorem deleteAt_insertAt_merged :
    ((typed "=A9*2").withMerge.isWritable = true ∧ 0 < 4 ∧
        0 < (typed "=A9*2").withMerge.lineCount .row ∧
        1 ≤ (typed "=A9*2").withMerge.lineCount .row ∧
        (typed "=A9*2").withMerge.Survives .row 1 4) ∧
      ((typed "=A9*2").withMerge.insertAt .row 1 4).2 = .applied ∧
      (((typed "=A9*2").withMerge.insertAt .row 1 4).1.deleteAt .row 1 4).2 = .applied ∧
      (((typed "=A9*2").withMerge.insertAt .row 1 4).1.deleteAt .row 1 4).1.snapshot =
        (typed "=A9*2").withMerge.snapshot := by
  have hs : (typed "=A9*2").withMerge.Survives .row 1 4 := by
    refine ⟨by decide, nofun, by decide, ?_, by decide,
      by decide, by decide, ?_⟩
    · show ∀ r ∈ (typed "=A9*2").withMerge.merges.ranges, _
      decide
    · exact Rows.forall_content (P := fun text => isFormulaText text = true →
        ∀ w ∈ Address.references text.toList, (LineEdit.insert .row 1 4).Recoverable w)
        nofun (by decide +kernel)
  exact ⟨⟨by decide, by decide, by decide, by decide, hs⟩,
    deleteAt_insertAt (by decide) (by decide) (by decide) (by decide) hs⟩

/-- Can a sheet be changed, has it neither merges nor marks, and are its references spelled
    as they are written? -/
def IsPlain (s : Sheet) : Prop :=
  s.isWritable = true ∧ s.merges = .empty ∧ (∀ c, s.rows.mark c = none) ∧
    ∀ c, isFormulaText (s.rows.content c) = true →
      ∀ w ∈ Address.references (s.rows.content c).toList, ∀ d ∈ CellRef.ofChars? w, w = d.toChars

/-- The stored cells tell. -/
theorem isPlain_of_cells {s : Sheet} (hwritable : s.isWritable = true) (hmerges : s.merges = .empty)
    (hmarks : ∀ e ∈ s.rows.cells, e.2.merge = none)
    (hreferences : ∀ e ∈ s.rows.cells, isFormulaText e.2.content = true →
      ∀ w ∈ Address.references e.2.content.toList, ∀ d ∈ CellRef.ofChars? w, w = d.toChars) :
    s.IsPlain := by
  refine ⟨hwritable, hmerges, fun c => ?_, Rows.forall_content (P := fun text =>
    isFormulaText text = true → ∀ w ∈ Address.references text.toList,
      ∀ d ∈ CellRef.ofChars? w, w = d.toChars) nofun hreferences⟩
  unfold Rows.mark
  cases hcell : s.rows.cell? c with
  | none => rfl
  | some cell => exact hmarks (c, cell) (Rows.mem_cells_iff.2 hcell)

/-- A reference that is pushed off the grid does not come back, although the sheet has no
    merges and its only reference is spelled as it is written, and neither does one that
    is moved by so many lines that their number is not read as itself. A merge of 2 ^ 64
    cells, which are counted as none, grows with the insertion and goes with the deletion. -/
theorem deleteAt_insertAt_off_grid :
    let square := Range.spanning .origin (UInt32.size - 1) (UInt32.size - 1)
    let anchor : SparseMap Cell := .ofList [(0, { merge := some square.span })]
    let large := (new "" {}).restore
      { merges := ⟨[square]⟩, rows := { len := 100, rows := .ofList [(0, { cells := anchor })] } }
    ((typed "=A18446744073709551615").IsPlain ∧
      5 ≤ (typed "=A18446744073709551615").lineCount .row ∧
      (((typed "=A18446744073709551615").insertAt .row 5 2).1.deleteAt .row 5 6).1.snapshot ≠
        (typed "=A18446744073709551615").snapshot) ∧
    ((typed "=A11").IsPlain ∧ 5 ≤ (typed "=A11").lineCount .row ∧
      (((typed "=A11").insertAt .row 5 Address.reach).1.deleteAt .row 5
        (5 + Address.reach - 1)).1.snapshot ≠ (typed "=A11").snapshot) ∧
    large.rows.Anchors large.merges ∧ 5 ≤ large.lineCount .row ∧
      ((large.insertAt .row 5 2).1.deleteAt .row 5 6).1.snapshot ≠ large.snapshot := by
  intro square anchor large
  -- The formulas are other ones afterwards, and so are the merges.
  have hchanged {s t : Sheet} (h : s.rows.content .origin ≠ t.rows.content .origin) :
      s.snapshot ≠ t.snapshot := fun heq =>
    h (congrArg (fun d : Snapshot => d.rows.content .origin) heq)
  have hdropped {s t : Sheet} (h : s.merges.ranges ≠ t.merges.ranges) : s.snapshot ≠ t.snapshot :=
    fun heq => h (congrArg (fun d : Snapshot => d.merges.ranges) heq)
  refine ⟨⟨isPlain_of_cells ?_ ?_ ?_ ?_, ?_, hchanged ?_⟩,
    ⟨isPlain_of_cells ?_ ?_ ?_ ?_, ?_, hchanged ?_⟩,
    show ∀ r ∈ large.merges.ranges, large.rows.mark r.first = some r.span from ?_, ?_,
    hdropped ?_⟩
  all_goals decide +kernel

end Sheet

end Worksheet
