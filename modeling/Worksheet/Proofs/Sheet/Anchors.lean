import Worksheet.Proofs.Sheet.Lines
import Worksheet.Proofs.Sheet.Pasting

/-!
# Merges and Their First Cells

That changes of a sheet leave every registered merge anchored.

`Agrees` has one direction of what the registry and the marks have to do with each
other, that every mark is registered, and a mark that breaks it is one that was left
behind. This module has the other direction: the first cell of every registered merge
is stored, with the span of the merge as its mark. A merge breaks it when it stays
registered while its first cell loses the mark, and `Rows.unmarked` is the list of
these for the one operation that takes marks, which is clearing.

Nothing else takes the mark of a merge that stays. Merging and pasting make room
first, so merges that are left do not meet the range, and merges that arrive have
marks that were written with them. An edit of lines changes the span of a merge and
its mark alike, as long as the merge stays on the grid.

## Main definitions

* `Rows.unmarked`: Merges that stay registered without a mark.

## Theorems

* `Rows.Anchors.cleared`: Clearing cells.
* `Sheet.anchored_mergeRange`: Merging.
* `Mirrors.edited`: An edit of lines.
* `Sheet.anchored_copyInto`: Pasting a copy.
-/

namespace Worksheet

/-! ## Clearing -/

namespace Rows

variable {s : Rows} {m : Merges} {mode : ClearMode} {r : Range}

theorem clearCells_single (s : Rows) (mode : ClearMode) (c : CellRef) :
    s.clearCells mode (.single c) = s.clearCell mode c := by
  simp [clearCells, Range.cells, Range.single, Range.height, Range.width]

/-- The mark of a cell is taken if it is open to edits. -/
theorem merge_of_cleared (mode : ClearMode) (cell : Option Cell) :
    (cell.bind (cleared mode)).bind Cell.merge =
      if mode.takesMark = true ∧ cell.all Cell.editable = true then none
      else cell.bind Cell.merge := by
  cases cell with
  | none => simp
  | some cell =>
    by_cases hedit : cell.editable = true
    · cases mode <;> simp [cleared, Cell.clear, ClearMode.takesMark, hedit]
    · simp [cleared, hedit]

theorem mark_clearCells (s : Rows) (mode : ClearMode) (r : Range) (c : CellRef) :
    (s.clearCells mode r).mark c =
      if mode.takesMark = true ∧ r.mem c = true ∧ (s.cell? c).all Cell.editable = true then none
      else s.mark c := by
  have hcell := cell?_clearCells s mode r c
  by_cases hin : r.mem c = true
  · rw [if_pos hin] at hcell
    rw [mark, hcell, merge_of_cleared, hin]
    simp only [true_and]
    rfl
  · rw [if_neg hin] at hcell
    rw [mark_congr hcell, if_neg fun h => hin h.2.1]

/-- The merges that stay registered when the marks of their first cells are cleared. -/
def unmarked (s : Rows) (mode : ClearMode) (r : Range) (kept : Merges) : List Range :=
  kept.ranges.filter fun m =>
    mode.takesMark && r.mem m.first && (s.cell? m.first).all Cell.editable

theorem mem_unmarked_iff {x : Range} : x ∈ s.unmarked mode r m ↔
    x ∈ m.ranges ∧
      mode.takesMark = true ∧ r.mem x.first = true ∧
        (s.cell? x.first).all Cell.editable = true := by
  simp [unmarked, and_assoc]

/-- A merge that is left without a mark has none. -/
theorem mark_of_mem_unmarked {x : Range} (h : x ∈ s.unmarked mode r m) :
    (s.clearCells mode r).mark x.first = none := by
  rw [mark_clearCells, if_pos (mem_unmarked_iff.1 h).2]

namespace Anchors

/-- Without such merges, clearing leaves every merge anchored that stays. -/
theorem cleared (h : s.Anchors m) (hnone : s.unmarked mode r m = []) :
    (s.clearCells mode r).Anchors m := by
  intro x hx
  rw [mark_clearCells, if_neg fun hlost => ?_]
  · exact h x hx
  · have hmem : x ∈ s.unmarked mode r m := mem_unmarked_iff.2 ⟨hx, hlost⟩
    rw [hnone] at hmem
    cases hmem

theorem removeWithin (h : s.Anchors m) (r : Range) : s.Anchors (m.removeWithin r) :=
  fun x hx => h x (List.mem_filter.1 hx).1

theorem of_sameMarks {s' : Rows} (h : s.Anchors m) (hs : SameMarks s s') : s'.Anchors m :=
  fun x hx => by rw [hs, h x hx]

end Anchors

end Rows

namespace Mirrors

variable {m : Merges} {s s' : Rows}

theorem of_sameMarks (h : Mirrors m s) (hs : Rows.SameMarks s s') : Mirrors m s' :=
  ⟨h.toAgrees.of_sameMarks hs, h.anchored.of_sameMarks hs⟩

end Mirrors

namespace Sheet

/-! ## Merging -/

/-- After merging a range that no merge sticks out of, every merge is anchored. -/
theorem anchored_mergeRange {s : Sheet} (h : s.rows.Anchors s.merges) {r : Range}
    (hroom : s.merges.straddling? r = none) :
    (mergeRange r s).rows.Anchors (mergeRange r s).merges := by
  intro x hx
  let anchor : Cell :=
    { (s.rows.cell? r.first).getD {} with merge := some ⟨r.height - 1, r.width - 1⟩ }
  have hcell : (mergeRange r s).rows.cell? x.first = if x.first = r.first then
      some (anchor.receive .all ((s.rows.clearCells .all r).cell? r.first))
      else (s.rows.clearCells .all r).cell? x.first :=
    Rows.cell?_setCell _ r.first x.first anchor .all
  rcases List.mem_append.1 hx with hleft | hnew
  · -- A merge that is left has no cell in common with the range.
    obtain ⟨hmem, hout⟩ := List.mem_filter.1 hleft
    have haway : r.mem x.first = false := by
      rw [Bool.eq_false_iff]
      intro hin
      rw [Merges.straddling?_eq_none_iff.1 hroom x hmem
        (Range.intersects_of_mem (Range.mem_first x) hin)] at hout
      cases hout
    have hne : x.first ≠ r.first := by
      intro heq
      rw [heq, Range.mem_first] at haway
      cases haway
    rw [if_neg hne, Rows.cell?_clearCells, haway, if_neg Bool.false_ne_true] at hcell
    rw [Rows.mark_congr hcell]
    exact h x hmem
  · rw [List.mem_singleton.1 hnew] at hcell ⊢
    rw [if_pos rfl] at hcell
    rw [Rows.mark, hcell]
    rfl

end Sheet

/-! ## Edits of lines -/

namespace Merges

variable {e : LineEdit} {r r' : Range} {out : Option Range × Option SpanChange}

/-- The span of a merge changes as its mark does, if it stays on the grid. -/
theorem Shifted.span (h : Shifted e r out) (hgrid : r.Below Address.gridLimit)
    (hnew : e.newLast (r.lastLine e.axis) < Address.gridLimit) (hr' : out.1 = some r') :
    out.2.elim (some r.span) (fun change => r.span.changed change.change) = some r'.span := by
  cases h with
  | moved hkeeps hfirst hlast =>
    have hedges := Range.move?_eq_some_iff.1 hr'
    simp only [Option.elim_none, Option.some.injEq, Range.span, Span.mk.injEq]
    omega
  | stays hbefore =>
    cases hr'
    rfl
  | through d hstart hlast hle =>
    simp only [Option.ite_none_right_eq_some, Option.some.injEq] at hr'
    obtain ⟨hmultiple, rfl⟩ := hr'
    have hstretch := stretch_eq_spanning hgrid hle (by omega)
    rw [hstretch, Range.isMultiple_iff] at hmultiple
    simp only [Range.spanning] at hmultiple
    rw [hstretch, Option.elim_some, Span.changed, if_neg]
    · exact congrArg some (Range.span_spanning r.first ⟨_, _⟩).symm
    · simp only [Span.zero, Span.mk.injEq]
      omega
  | gone hgone => cases hr'

/-- What is left of a merge begins where its first cell is after the edit. -/
theorem Shifted.first (h : Shifted e r out) (hgrid : r.Below Address.gridLimit)
    (hr' : out.1 = some r') : e.Keeps r.first ∧ e.relabel r.first = r'.first := by
  obtain ⟨hkeeps, hfirst, -, hother, -⟩ := h.lines (hgrid.lastLine e.axis) hr'
  unfold LineEdit.Keeps LineEdit.relabel
  cases haxis : e.axis with
  | row =>
    rw [haxis] at hkeeps hfirst hother
    exact ⟨hkeeps, (CellRef.mk.injEq ..).mpr ⟨hfirst.symm, hother.symm⟩⟩
  | column =>
    rw [haxis] at hkeeps hfirst hother
    exact ⟨hkeeps, (CellRef.mk.injEq ..).mpr ⟨hother.symm, hfirst.symm⟩⟩

end Merges

/-- After an edit of lines that keeps all merges on the grid, every merge is anchored. -/
theorem Mirrors.anchored_edited {m : Merges} {s : Rows} {e : LineEdit} (h : Mirrors m s)
    (hn : e.distance ≠ 0) (hroom : e.HasRoom m) :
    ((m.shift e.axis e.start e.distance).2.foldl Sheet.changeSpan (e.apply s)).Anchors
      (m.shift e.axis e.start e.distance).1 := by
  intro r' hr'
  rw [Merges.ranges_shift hn, List.mem_filterMap] at hr'
  obtain ⟨r, hr, hr'⟩ := hr'
  have hshifted := Merges.shifted hn hroom.reach (hroom.grid r hr)
  obtain ⟨hkeeps, hfirst⟩ := hshifted.first (hroom.grid r hr) hr'
  have hmark := h.apart.mark_changes hn hroom.reach hroom.grid hr hkeeps (e.apply s)
  -- The first cell is moved with its mark, and then the mark is changed as the merge is.
  rw [← hfirst, hmark, e.mark_apply s hkeeps, h.anchored r hr]
  exact hshifted.span (hroom.grid r hr) (hroom.room r hr) hr'

/-- An edit of lines that keeps all merges on the grid keeps registry and marks mirror images
    of each other. -/
theorem Mirrors.edited {m : Merges} {s : Rows} {e : LineEdit} (h : Mirrors m s)
    (hn : e.distance ≠ 0) (hroom : e.HasRoom m) :
    Mirrors (m.shift e.axis e.start e.distance).1
      ((m.shift e.axis e.start e.distance).2.foldl Sheet.changeSpan (e.apply s)) :=
  ⟨h.toAgrees.edited hn hroom, h.anchored_edited hn hroom⟩

namespace Sheet

section

variable {s : Sheet} {src dst : Range} {series : Bool}

/-! ## Pasting a copy -/

/-- A copy changes no cell outside of its footprint. -/
theorem cell?_copyInto_of_not_mem {mode : CopyMode} {c : CellRef}
    (hc : (footprint src dst).mem c = false) :
    (copyInto src dst mode series s).rows.cell? c = s.rows.cell? c := by
  have hcopied : (s.rows.copyBlock src dst mode series).1.cell? c = s.rows.cell? c := by
    refine Rows.cell?_copyBlock_of_not_mem fun w hw heq => ?_
    obtain ⟨x⟩ := Rows.mem_copies_iff.1 hw
    rw [← heq, x.mem_footprint] at hc
    cases hc
  by_cases hmode : mode = .text
  · subst hmode
    exact hcopied
  -- Marks are taken off cells that were written, and room is made where they were.
  have hunmarked : (s.copied src dst mode series).rows.cell? c = s.rows.cell? c := by
    refine (cell?_unmark fun m hm hfirst => ?_).trans hcopied
    obtain ⟨w, hw, span, -, -, rfl⟩ := mem_anchoredRanges_iff.1 (List.mem_filter.1 hm).1
    obtain ⟨x⟩ := Rows.mem_copies_iff.1 hw
    rw [Range.first_spanning] at hfirst
    rw [← hfirst, x.mem_footprint] at hc
    cases hc
  rw [(copyInto_eq s src dst series hmode).2]
  rcases cell?_dropMerges (s := s.copied src dst mode series) c with
    ⟨hkept, -⟩ | ⟨-, ⟨m, hm, hin, -, rfl⟩, -⟩
  · exact hkept.trans hunmarked
  · rw [Range.mem_of_within hin (Range.mem_first m)] at hc
    cases hc

/-- The mark of a merge that arrives whole is written, and stays. -/
theorem mark_copyInto_of_whole {mode : CopyMode} (hmode : mode ≠ .text) {r : Range}
    (hr : r ∈ s.wholeRanges src dst series) :
    (copyInto src dst mode series s).rows.mark r.first = some r.span := by
  obtain ⟨hwhole, w, hw, span, hspan, hzero, rfl⟩ := mem_wholeRanges_iff.1 hr
  rw [Range.first_spanning, Range.span_spanning, (copyInto_eq s src dst series hmode).2]
  have hcopied : (s.rows.copyBlock src dst mode series).1.mark w.1 = some span := by
    rw [Rows.mark, Rows.cell?_copyBlock_of_mem hw, Option.bind_some]
    cases mode with
    | all => exact hspan
    | text => exact absurd rfl hmode
    | format => rw [Cell.receive, hspan, Option.some_or]
  have hunmarked : (s.copied src dst mode series).rows.cell? w.1 =
      (s.rows.copyBlock src dst mode series).1.cell? w.1 := by
    refine cell?_unmark fun m hm hfirst => ?_
    obtain ⟨harrived, hbroken⟩ := List.mem_filter.1 hm
    obtain ⟨w', hw', span', hspan', -, rfl⟩ := mem_anchoredRanges_iff.1 harrived
    -- Only one copy is written at a place, so this is the merge that is whole.
    obtain ⟨x⟩ := Rows.mem_copies_iff.1 hw
    obtain ⟨y⟩ := Rows.mem_copies_iff.1 hw'
    rw [Range.first_spanning] at hfirst
    have heq := y.eq_of_target_eq x hfirst
    subst heq
    rw [hspan, Option.some.injEq] at hspan'
    rw [← hspan', hwhole] at hbroken
    cases hbroken
  rcases cell?_dropMerges (s := s.copied src dst mode series) w.1 with ⟨hkept, -⟩ | ⟨-, -, hnone⟩
  · rw [Rows.mark_congr (hkept.trans hunmarked), hcopied]
  · exact absurd (Range.first_spanning w.1 span.rows span.cols) (hnone _ hr)

/-- After a copy every registered merge is anchored. -/
theorem anchored_copyInto (h : Mirrors s.merges s.rows) (mode : CopyMode)
    (hcheck : s.checkPaste src dst = none) :
    (copyInto src dst mode series s).rows.Anchors (copyInto src dst mode series s).merges := by
  intro r hr
  by_cases hmode : mode = .text
  · subst hmode
    exact (mark_copyBlock_text).trans (h.anchored r hr)
  have hcover := checkPaste_eq_none_iff.1 hcheck
  have hwhole : Merges.Apart ⟨s.wholeRanges src dst series⟩ := apart_whole h.toAgrees
  rw [(copyInto_eq s src dst series hmode).1, ranges_arrived (s := s.copied src dst mode series)
    h.apart hcover hwhole fun m hm => wholeRanges_within hm, List.mem_append] at hr
  rcases hr with hleft | harrived
  · obtain ⟨hmem, haway⟩ :=
      (mem_cleared_iff (s := s.copied src dst mode series) h.apart hcover r).1 hleft
    have hout : (footprint src dst).mem r.first = false := by
      rw [Bool.eq_false_iff]
      intro hin
      rw [Range.intersects_of_mem (Range.mem_first r) hin] at haway
      cases haway
    rw [Rows.mark_congr (cell?_copyInto_of_not_mem hout)]
    exact h.anchored r hmem
  · exact mark_copyInto_of_whole hmode harrived

end

end Sheet

end Worksheet
