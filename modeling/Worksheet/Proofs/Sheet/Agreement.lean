import Worksheet.Proofs.Merges
import Worksheet.Proofs.Rows.Marks
import Worksheet.Sheet.Cells
import Worksheet.Sheet.Selecting

/-!
# The Registry and the Marks

What the merges of a sheet and the marks of its cells have to do with each
other, and that merging, unmerging and clearing keep it.

A merge is written down twice: in the registry, and as the span of the cell
that anchors it. A paste makes registered merges out of marks, so merges stay
apart only as long as no cell keeps the mark of a merge that is gone. A locked
cell may keep one: it is not cleared, so it keeps its mark when the merge is
removed. Everywhere else an operation leaves no mark without its merge.

## Main definitions

* `Range.span`: What the mark of a merge has to be.
* `Rows.MarksIn`: Every mark belongs to a registered merge.
* `Rows.Anchors`: Every registered merge is anchored by a mark.
* `Agrees`: The merges are apart and every mark is registered.
* `Mirrors`: The registry says just what the marks say.
* `Rows.IsLocked`: A cell whose mark can be left behind.
* `Settled`: `Agrees`, but for marks of locked cells.

## Theorems

* `Agrees.merged`, `Agrees.unmerged`: Merging and unmerging.
* `Agrees.cleared`: Clearing a range.
-/

namespace Worksheet

/-- Does clearing part of a cell take its mark? -/
def ClearMode.takesMark : ClearMode → Bool
  | .text => false
  | _ => true

theorem Cell.merge_of_clear {cell rest : Cell} {mode : ClearMode}
    (h : cell.clear mode = some rest) :
    rest.merge = if mode.takesMark then none else cell.merge := by
  cases mode <;> cases h <;> rfl

/-- The rows and columns of a range past its first cell. -/
def Range.span (r : Range) : Span := ⟨r.bottom - r.top, r.right - r.left⟩

theorem Range.spanning_span (r : Range) : Range.spanning r.first r.span.rows r.span.cols = r := by
  have htop := r.top_le_bottom
  have hleft := r.left_le_right
  simp only [Range.eq_iff, Range.spanning, Range.first, Range.span, true_and]
  omega

theorem Range.span_spanning (c : CellRef) (span : Span) :
    (Range.spanning c span.rows span.cols).span = span := by
  simp only [Range.span, Range.spanning, Nat.add_sub_cancel_left]

namespace Rows

/-- Does every mark belong to a registered merge? -/
def MarksIn (s : Rows) (m : Merges) : Prop :=
  ∀ c span, s.mark c = some span → Range.spanning c span.rows span.cols ∈ m.ranges

/-- Is every registered merge anchored by a cell with its span? -/
def Anchors (s : Rows) (m : Merges) : Prop := ∀ r ∈ m.ranges, s.mark r.first = some r.span

/-- Is a locked cell stored at a place? -/
def IsLocked (s : Rows) (c : CellRef) : Prop :=
  ∃ cell, s.cell? c = some cell ∧ cell.editable = false

theorem mark_eq_some_iff {s : Rows} {c : CellRef} {span : Span} :
    s.mark c = some span ↔ ∃ cell, s.cell? c = some cell ∧ cell.merge = some span :=
  Option.bind_eq_some_iff

theorem mark_congr {s s' : Rows} {c c' : CellRef} (h : s.cell? c = s'.cell? c') :
    s.mark c = s'.mark c' := by
  rw [mark, mark, h]

end Rows

/-- The merges are apart, and every mark belongs to one of them. -/
structure Agrees (m : Merges) (s : Rows) : Prop where
  apart : m.Apart
  marks : s.MarksIn m

/-- The merges are apart, every mark belongs to one of them, and each of them is
    anchored. -/
structure Mirrors (m : Merges) (s : Rows) : Prop extends Agrees m s where
  anchored : s.Anchors m

/-- The merges are apart, and every mark belongs to one of them unless its cell is
    locked. -/
structure Settled (m : Merges) (s : Rows) : Prop where
  apart : m.Apart
  marks : ∀ c span, s.mark c = some span →
    Range.spanning c span.rows span.cols ∈ m.ranges ∨ s.IsLocked c

namespace Agrees

variable {m : Merges} {s s' : Rows}

theorem settled (h : Agrees m s) : Settled m s :=
  ⟨h.apart, fun c span hmark => .inl (h.marks c span hmark)⟩

theorem of_sameMarks (h : Agrees m s) (hs : Rows.SameMarks s s') : Agrees m s' :=
  ⟨h.apart, fun c span hmark => h.marks c span (by rw [← hs c, hmark])⟩

end Agrees

theorem Range.mem_spanning (c : CellRef) (rows cols : Nat) :
    (Range.spanning c rows cols).mem c = true :=
  Range.mem_first (Range.spanning c rows cols)

/-! ## Merging and clearing -/

section

variable {m : Merges} {s : Rows} {r : Range}

/-- A merge that begins outside of a range does not lie in it. -/
theorem mem_removeWithin {c : CellRef} {span : Span}
    (h : Range.spanning c span.rows span.cols ∈ m.ranges) (hc : r.mem c = false) :
    Range.spanning c span.rows span.cols ∈ (m.removeWithin r).ranges := by
  refine List.mem_filter.2 ⟨h, ?_⟩
  rw [Bool.not_eq_true', Bool.eq_false_iff]
  intro hwithin
  rw [Range.mem_of_within hwithin (Range.mem_spanning c _ _)] at hc
  cases hc

/-- Only a locked cell keeps a mark when it is cleared of it. -/
theorem locked_of_cleared {s' : Rows} {mode : ClearMode} {c c' : CellRef} {span : Span}
    (hmode : mode.takesMark = true)
    (hcell : s'.cell? c = (s.cell? c').bind (Rows.cleared mode)) (hmark : s'.mark c = some span) :
    s'.IsLocked c := by
  obtain ⟨cell', hcell', hmerge⟩ := Rows.mark_eq_some_iff.1 hmark
  obtain ⟨cell, hold, hcleared⟩ := Option.bind_eq_some_iff.1 (hcell.symm.trans hcell')
  refine ⟨cell', hcell', ?_⟩
  unfold Rows.cleared at hcleared
  by_cases hedit : cell.editable = true
  · rw [if_pos hedit] at hcleared
    rw [Cell.merge_of_clear hcleared, if_pos hmode] at hmerge
    cases hmerge
  · rw [if_neg hedit] at hcleared
    cases hcleared
    exact Bool.eq_false_iff.2 hedit

/-- And then it was not cleared of anything. -/
theorem cell?_of_cleared {s' : Rows} {mode : ClearMode} {c c' : CellRef} {span : Span}
    (hmode : mode.takesMark = true)
    (hcell : s'.cell? c = (s.cell? c').bind (Rows.cleared mode)) (hmark : s'.mark c = some span) :
    s.cell? c' = s'.cell? c := by
  obtain ⟨cell', hcell', hlocked⟩ := locked_of_cleared hmode hcell hmark
  obtain ⟨cell, hold, hcleared⟩ := Option.bind_eq_some_iff.1 (hcell.symm.trans hcell')
  obtain ⟨cell'', hcell'', hmerge⟩ := Rows.mark_eq_some_iff.1 hmark
  rw [hcell', Option.some.injEq] at hcell''
  subst hcell''
  unfold Rows.cleared at hcleared
  split at hcleared
  · rw [Cell.merge_of_clear hcleared, if_pos hmode] at hmerge
    cases hmerge
  · rw [hold, hcell', hcleared]

/-- Merging a range that no merge sticks out of. -/
theorem Agrees.merged (h : Agrees m s) (hr : r.isMultiple = true)
    (hroom : m.straddling? r = none) (anchor : Cell)
    (hanchor : anchor.merge = some ⟨r.height - 1, r.width - 1⟩) :
    Settled (m.add r) ((s.clearCells .all r).setCell r.first anchor .all) := by
  refine ⟨h.apart.add hr (Merges.straddling?_eq_none_iff.1 hroom), fun c span hmark => ?_⟩
  have hcell := Rows.cell?_setCell (s.clearCells .all r) r.first c anchor .all
  by_cases hc : c = r.first
  · left
    rw [if_pos hc] at hcell
    rw [Rows.mark, hcell, Option.bind_some, Cell.receive, hanchor, Option.some.injEq] at hmark
    rw [hc, ← hmark, ← Range.eq_spanning]
    exact List.mem_append_right _ (List.mem_singleton.2 rfl)
  · rw [if_neg hc, Rows.cell?_clearCells] at hcell
    by_cases hin : r.mem c = true
    · right
      rw [if_pos hin] at hcell
      exact locked_of_cleared rfl hcell hmark
    · left
      rw [if_neg hin] at hcell
      rw [Rows.mark_congr hcell] at hmark
      exact List.mem_append_left _
        (mem_removeWithin (h.marks c span hmark) (Bool.eq_false_iff.2 hin))

/-- Unmerging a range that is one merge, or one cell. -/
theorem Agrees.unmerged (h : Agrees m s)
    (hr : r ∈ m.ranges ∨ r.isMultiple = false) :
    Settled (m.removeWithin r) (s.clearCell .merge r.first) := by
  refine ⟨h.apart.removeWithin r, fun c span hmark => ?_⟩
  have hcell := Rows.cell?_clearCell s .merge r.first c
  by_cases hc : c = r.first
  · right
    rw [if_pos hc] at hcell
    exact locked_of_cleared rfl hcell hmark
  · left
    rw [if_neg hc] at hcell
    rw [Rows.mark_congr hcell] at hmark
    have hmem := h.marks c span hmark
    refine List.mem_filter.2 ⟨hmem, ?_⟩
    rw [Bool.not_eq_true', Bool.eq_false_iff]
    intro hwithin
    rcases hr with hr | hr
    · -- Another merge does not lie in this one.
      have heq := h.apart.eq_of_intersects hmem hr
        (by rw [Range.intersects_comm]
            exact Range.intersects_of_within hwithin (Range.intersects_self _))
      exact hc (congrArg Range.first heq)
    · -- No merge lies in one cell.
      have hmultiple := h.apart.multiple _ hmem
      rw [Range.within_iff] at hwithin
      rw [Bool.eq_false_iff, ne_eq, Range.isMultiple_iff] at hr
      rw [Range.isMultiple_iff] at hmultiple
      omega

/-- Clearing a range together with the merges in it. -/
theorem Agrees.cleared (h : Agrees m s) {mode : ClearMode} (hmode : mode.takesMark = true) :
    Settled (m.removeWithin r) (s.clearCells mode r) := by
  refine ⟨h.apart.removeWithin r, fun c span hmark => ?_⟩
  have hcell := Rows.cell?_clearCells s mode r c
  by_cases hin : r.mem c = true
  · right
    rw [if_pos hin] at hcell
    exact locked_of_cleared hmode hcell hmark
  · left
    rw [if_neg hin] at hcell
    rw [Rows.mark_congr hcell] at hmark
    exact mem_removeWithin (h.marks c span hmark) (Bool.eq_false_iff.2 hin)

/-- Clearing adds no mark, so the registry can stay as it is. -/
theorem Agrees.cleared_keeping (h : Agrees m s) (mode : ClearMode) :
    Agrees m (s.clearCells mode r) := by
  refine ⟨h.apart, fun c span hmark => h.marks c span ?_⟩
  have hcell := Rows.cell?_clearCells s mode r c
  by_cases hin : r.mem c = true
  · rw [if_pos hin] at hcell
    obtain ⟨cell', hcell', hmerge⟩ := Rows.mark_eq_some_iff.1 hmark
    obtain ⟨cell, hold, hcleared⟩ := Option.bind_eq_some_iff.1 (hcell.symm.trans hcell')
    refine Rows.mark_eq_some_iff.2 ⟨cell, hold, ?_⟩
    unfold Rows.cleared at hcleared
    split at hcleared
    · rw [Cell.merge_of_clear hcleared] at hmerge
      split at hmerge
      · cases hmerge
      · exact hmerge
    · cases hcleared
      exact hmerge
  · rw [if_neg hin] at hcell
    rw [← Rows.mark_congr hcell, hmark]

end

namespace Sheet

variable {s : Sheet}

/-- The mark of its first cell spans a range that is a merge. -/
theorem eq_spanning_of_isExactMerge {r : Range} (hr : s.isExactMerge r = true) :
    ∃ span, s.rows.mark r.first = some span ∧ r = Range.spanning r.first span.rows span.cols := by
  unfold isExactMerge at hr
  split at hr
  · rename_i span hmark
    simp only [Bool.and_eq_true, beq_iff_eq] at hr
    refine ⟨span, hmark, ?_⟩
    simp only [Range.eq_iff, Range.spanning, Range.first, true_and]
    omega
  · cases hr

theorem mem_ranges_of_isExactMerge (h : Agrees s.merges s.rows) {r : Range}
    (hr : s.isExactMerge r = true) : r ∈ s.merges.ranges := by
  obtain ⟨span, hmark, heq⟩ := eq_spanning_of_isExactMerge hr
  rw [heq]
  exact h.marks r.first span hmark

theorem settled_mergeRange (h : Agrees s.merges s.rows) {r : Range} (hr : r.isMultiple = true)
    (hroom : s.merges.straddling? r = none) :
    Settled (mergeRange r s).merges (mergeRange r s).rows :=
  h.merged hr hroom _ rfl

theorem settled_unmergeRange (h : Agrees s.merges s.rows) {r : Range}
    (hr : s.isExactMerge r = true ∨ r.isMultiple = false) :
    Settled (unmergeRange r s).merges (unmergeRange r s).rows :=
  h.unmerged (hr.imp_left (mem_ranges_of_isExactMerge h))

end Sheet

end Worksheet
