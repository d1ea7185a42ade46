import Worksheet.Proofs.Sheet.Anchors
import Worksheet.Proofs.Sheet.Committing
import Worksheet.Proofs.Sheet.Cutting
import Worksheet.Proofs.Sheet.Formatting

/-!
# What Can Happen to Merges

The handful of changes that touch the registry or a mark.

Whatever a command checks before it makes a change is what keeps merges apart, so
`Change` carries it. It also carries what a change needs of the grid: an edit of lines
leaves room for all merges, and what was cut is moved with the numbers that indices
have.

Two things come between the registry and the marks. A copy makes merges out of marks.
And clearing or unmerging takes marks off merges that stay registered: clearing marks
alone drops no merge, and the others drop only merges that lie in the range as a whole.

## Main definitions

* `Sheet.Alike`: Two sheets that agree in all that merges depend on.
* `Sheet.arrivingRanges`: The merges that a copy makes out of marks.
* `Sheet.Change`: A change of the merges or of the marks.

## Theorems

* `Sheet.Change.apart_iff`: When merges are apart after a change.
* `Sheet.Change.settled`: A change leaves no mark behind but those of locked cells.
* `Sheet.Change.anchored`: A change without losses leaves every merge anchored.
-/

namespace Worksheet

namespace Sheet

/-- Do two sheets have the same merges, marks and history? -/
structure Alike (s s' : Sheet) : Prop where
  merges : s'.merges = s.merges
  marks : Rows.SameMarks s.rows s'.rows
  history : s'.history = s.history
  pending : s'.pending = s.pending

/-- Do two sheets have the same merges, rows and history? -/
structure Same (s s' : Sheet) : Prop where
  merges : s'.merges = s.merges
  rows : s'.rows = s.rows
  history : s'.history = s.history
  pending : s'.pending = s.pending

theorem Same.alike {s s' : Sheet} (h : Same s s') : Alike s s' :=
  ⟨h.merges, fun c => by rw [h.rows], h.history, h.pending⟩

namespace Alike

theorem refl (s : Sheet) : Alike s s := ⟨rfl, .refl s.rows, rfl, rfl⟩

theorem trans {s s' s'' : Sheet} (h : Alike s s') (h' : Alike s' s'') : Alike s s'' :=
  ⟨h'.merges.trans h.merges, h.marks.trans h'.marks, h'.history.trans h.history,
    h'.pending.trans h.pending⟩

end Alike

/-! ## Changes that leave merges alone -/

theorem alike_editStyle (edit : Style → Style) (s : Sheet) (c : CellRef) :
    Alike s (s.editStyle edit c) :=
  ⟨rfl, Rows.sameMarks_editCell fun _ => rfl, rfl, rfl⟩

theorem alike_drawBorders (mode : BorderMode) (e : BorderEdge) (r : Range) (s : Sheet) :
    Alike s (s.drawBorders mode e r) :=
  drawBorders_keeps (fun s' edit c h => h.trans (alike_editStyle edit s' c)) mode e r (.refl s)

theorem alike_putText (s : Sheet) (c : CellRef) (text : String) : Alike s (s.putText c text) :=
  ⟨rfl, Rows.sameMarks_editCell fun _ => rfl, rfl, rfl⟩

theorem alike_insertFunction (f : Formula.Function) (r : Range) (s : Sheet) :
    Alike s (s.insertFunction f r) :=
  insertFunction_keeps (fun s' c text h => h.trans (alike_putText s' c text)) f r (.refl s)

theorem alike_setEditable (on : Bool) (r : Range) (s : Sheet) : Alike s (s.setEditable on r) where
  merges := rfl
  marks := by
    refine Rows.SameMarks.foldl (fun rows c => ?_) r.cells s.rows
    exact Rows.sameMarks_editCell fun _ => rfl
  history := rfl
  pending := rfl

theorem alike_hideRows (r : Range) (s : Sheet) : Alike s (s.hideRows r) :=
  ⟨rfl, Rows.SameMarks.foldl (fun s i => Rows.sameMarks_setHidden s i true) _ s.rows, rfl, rfl⟩

/-! ## Changes -/

/-- The merges that a copy makes out of the marks it takes along. -/
def arrivingRanges (s : Sheet) (src dst : Range) (mode : CopyMode) (series : Bool) : List Range :=
  match mode with
  | .text => []
  | .all | .format => s.wholeRanges src dst series

/-- The merges that stay registered when cells are cleared. -/
def keptMerges (s : Sheet) (mode : ClearMode) (r : Range) : Merges :=
  match mode with
  | .all | .format => s.merges.removeWithin r
  | .text | .merge => s.merges

/-- What a change can do to merges and marks. The first list holds the merges that the
    change makes out of marks, and the second one those that it leaves without. -/
inductive Change (s : Sheet) : List Range → List Range → Sheet → Prop where
  /-- Merges and marks stay as they are. -/
  | alike {s' : Sheet} (h : Alike s s') : Change s [] [] s'
  /-- A range is merged that no merge sticks out of. -/
  | merge {r : Range} (hr : r.isMultiple = true) (hroom : s.merges.straddling? r = none) :
      Change s [] [] (mergeRange r s)
  /-- A merge is undone, or nothing. -/
  | unmerge {r : Range} (hr : s.isExactMerge r = true ∨ r.isMultiple = false) :
      Change s [] (s.rows.unmarked .merge (.single r.first) (s.merges.removeWithin r))
        (unmergeRange r s)
  /-- Cells are cleared, and of their formats the merges there go too. -/
  | clear (mode : ClearMode) (r : Range) :
      Change s [] (s.rows.unmarked mode r (s.keptMerges mode r))
        { s with rows := s.rows.clearCells mode r, merges := s.keptMerges mode r }
  /-- Lines are inserted or deleted. -/
  | edit {s' : Sheet} {e : LineEdit} (hn : e.distance ≠ 0) (hroom : e.HasRoom s.merges)
      (h : Edited s e s') : Change s [] [] s'
  /-- A copy is pasted. -/
  | copy {src dst : Range} (mode : CopyMode) (series : Bool)
      (hcheck : s.checkPaste src dst = none) :
      Change s (s.arrivingRanges src dst mode series) [] (copyInto src dst mode series s)
  /-- What was cut is pasted. -/
  | move {src dst : Range} (hmove : src.CanMove dst.first) (hcut : s.checkCut src = none)
      (hcheck : s.checkPaste src (.single dst.first) = none) : Change s [] [] (moveInto src dst s)

namespace Change

variable {s s' : Sheet} {new lost : List Range}

theorem session_dropMerges (inside : Range) (keep : Option Range) (written : List Range) :
    (s.dropMerges inside keep written).history = s.history ∧
      (s.dropMerges inside keep written).pending = s.pending := by
  unfold dropMerges
  -- Merges are dropped one by one, and none of them touches the history.
  generalize List.filter _ s.merges.ranges = stale
  induction stale generalizing s with
  | nil => exact ⟨rfl, rfl⟩
  | cons m stale ih => exact ih

/-- A change is not what the history takes note of. -/
theorem session (h : Change s new lost s') : s'.history = s.history ∧ s'.pending = s.pending := by
  cases h with
  | alike h => exact ⟨h.history, h.pending⟩
  | edit hn hroom h => exact ⟨h.history, h.pending⟩
  | copy mode series hcheck =>
    cases mode with
    | text => exact ⟨rfl, rfl⟩
    | all => exact session_dropMerges (s := { s with rows := _ }) _ _ _
    | format => exact session_dropMerges (s := { s with rows := _ }) _ _ _
  | move hmove hcut hcheck => exact session_dropMerges _ _ _
  | merge | unmerge | clear => exact ⟨rfl, rfl⟩

/-- No mark is left behind by a change, but for those of locked cells. -/
theorem settled (h : Change s new lost s') (hs : Agrees s.merges s.rows) :
    Settled s'.merges s'.rows := by
  cases h with
  | alike h =>
    rw [h.merges]
    exact (hs.of_sameMarks h.marks).settled
  | merge hr hroom => exact settled_mergeRange hs hr hroom
  | unmerge hr => exact settled_unmergeRange hs hr
  | clear mode r => cases mode with
    | all => exact hs.cleared rfl
    | format => exact hs.cleared rfl
    | text => exact (hs.cleared_keeping .text).settled
    | merge => exact (hs.cleared_keeping .merge).settled
  | edit hn hroom h =>
    rw [h.merges, h.rows]
    exact (hs.edited hn hroom).settled
  | copy mode series hcheck => exact settled_copyInto hs mode hcheck
  | move hmove hcut hcheck => exact settled_moveInto hs hmove hcut hcheck

/-- What is left without a mark stays registered. -/
theorem mark_of_lost (h : Change s new lost s') {m : Range} (hm : m ∈ lost) :
    m ∈ s'.merges.ranges ∧ s'.rows.mark m.first = none := by
  cases h with
  | unmerge hr =>
    refine ⟨(Rows.mem_unmarked_iff.1 hm).1, ?_⟩
    have hmark := Rows.mark_of_mem_unmarked hm
    rwa [Rows.clearCells_single] at hmark
  | clear mode r => exact ⟨(Rows.mem_unmarked_iff.1 hm).1, Rows.mark_of_mem_unmarked hm⟩
  | alike | merge | edit | copy | move => cases hm

/-- When nothing is left without a mark, every merge is anchored. -/
theorem anchored (h : Change s new [] s') (hs : Mirrors s.merges s.rows) :
    s'.rows.Anchors s'.merges := by
  generalize hlost : [] = lost at h
  cases h with
  | alike h =>
    rw [h.merges]
    exact hs.anchored.of_sameMarks h.marks
  | merge hr hroom => exact anchored_mergeRange hs.anchored hroom
  | unmerge hr =>
    have hcleared := (hs.anchored.removeWithin _).cleared hlost.symm
    rwa [Rows.clearCells_single] at hcleared
  | clear mode r =>
    have hkept : s.rows.Anchors (s.keptMerges mode r) := by
      cases mode with
      | all => exact hs.anchored.removeWithin r
      | format => exact hs.anchored.removeWithin r
      | text => exact hs.anchored
      | merge => exact hs.anchored
    exact hkept.cleared hlost.symm
  | edit hn hroom h =>
    rw [h.merges, h.rows]
    exact hs.anchored_edited hn hroom
  | copy mode series hcheck => exact anchored_copyInto hs mode hcheck
  | move hmove hcut hcheck => exact anchored_moveInto hs hmove hcut hcheck

/-- All that arrives is apart when nothing does. -/
theorem apart_iff_of_nil {m : Merges} (h : m.Apart) :
    m.Apart ↔ (([] : List Range).foldl Merges.add .empty).Apart :=
  iff_of_true h .empty

/-- After a change merges are apart if and only if those that arrive are. -/
theorem apart_iff (h : Change s new lost s') (hs : s.merges.Apart) :
    s'.merges.Apart ↔ (new.foldl Merges.add .empty).Apart := by
  cases h with
  | alike h => exact apart_iff_of_nil (h.merges ▸ hs)
  | merge hr hroom => exact apart_iff_of_nil (hs.add hr (Merges.straddling?_eq_none_iff.1 hroom))
  | unmerge hr => exact apart_iff_of_nil (hs.removeWithin _)
  | clear mode r => cases mode with
    | all => exact apart_iff_of_nil (hs.removeWithin r)
    | format => exact apart_iff_of_nil (hs.removeWithin r)
    | text => exact apart_iff_of_nil hs
    | merge => exact apart_iff_of_nil hs
  | edit hn hroom h => exact apart_iff_of_nil (h.merges ▸ hs.edited hn hroom)
  | copy mode series hcheck =>
    have hcover := checkPaste_eq_none_iff.1 hcheck
    cases mode with
    | text => exact apart_iff_of_nil hs
    | all =>
      exact apart_arrived_iff (s := { s with rows := _ }) hs hcover fun m hm =>
        wholeRanges_within hm
    | format =>
      exact apart_arrived_iff (s := { s with rows := _ }) hs hcover fun m hm =>
        wholeRanges_within hm
  | move hmove hcut hcheck => exact apart_iff_of_nil (apart_moveInto hs hmove hcheck)

end Change

end Sheet

end Worksheet
