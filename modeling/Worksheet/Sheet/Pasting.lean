import Worksheet.Rows.Transfer
import Worksheet.Sheet.State

/-!
# Copying and Pasting

The clipboard, filling, and pasting text.

A paste may touch a merge only by covering exactly it, and a cut takes whole
merges only. Both are checked before anything is changed.

A copy writes cells together with the spans of the merges they anchor. A
merge that did not lie inside its copy of the source arrives as a plain cell.
Merges that were in the way are dropped from the registry, the others are
registered, and the cells that used to anchor a dropped merge lose their
span. A cut moves cells, spans and registered merges together.

## Main definitions

* `copy`, `cut`, `clearClipboard`: The clipboard.
* `checkPaste`, `checkCut`: The reasons to refuse.
* `copyInto`, `moveInto`: The changes.
* `paste`, `fill`: The operations.
* `pasteText`, `selectedText`: Text from and for elsewhere.
-/

namespace Worksheet

namespace Sheet

/-- Remember the selection to be copied. -/
def copy (s : Sheet) : Sheet × Outcome :=
  match s.selection.range with
  | some r => ({ s with clipboard := .copy r }, .applied)
  | none => (s, .ignored)

/-- Remember the selection to be moved. -/
def cut (s : Sheet) : Sheet × Outcome :=
  match s.selection.range with
  | some r => ({ s with clipboard := .cut r }, .applied)
  | none => (s, .ignored)

/-- Forget what was to be pasted. -/
def clearClipboard (s : Sheet) : Sheet :=
  { s with clipboard := .clear }

/-- Why a copy of `src` may not be pasted at `dst`. -/
def checkPaste (s : Sheet) (src dst : Range) : Option GridError :=
  let f := footprint src dst
  if s.merges.ranges.any fun m => m.intersects f && m != f then some .pasteIntoMerge else none

/-- Why a range may not be cut. -/
def checkCut (s : Sheet) (src : Range) : Option GridError :=
  (s.merges.straddling? src).map .cutSplitsMerge

/-- Take a merge out of the registry. Its first cell loses the span, unless the
    cell was written just now and carries the span of another merge. -/
def dropMerge (written : List Range) (s : Sheet) (m : Range) : Sheet :=
  { s with
    merges := s.merges.removeWithin m
    rows := if written.any fun w => w.first == m.first then s.rows
      else s.rows.clearCell .merge m.first }

/-- Drop the merges inside a range, apart from those inside `keep`. -/
def dropMerges (inside : Range) (keep : Option Range) (written : List Range) (s : Sheet) : Sheet :=
  let stale := s.merges.ranges.filter fun m => m.within inside && !keep.any fun k => m.within k
  stale.foldl (dropMerge written) s

/-- The merges that written cells anchor. -/
def anchoredRanges (written : List (CellRef × Cell)) : List Range :=
  written.filterMap fun w => match w.2.merge with
    | some span => if span = .zero then none else some (.spanning w.1 span.rows span.cols)
    | none => none

/-- The copy of the source that a cell written by a paste belongs to. -/
def tileOf (src dst : Range) (c : CellRef) : Range :=
  .spanning
    ⟨dst.top + (c.row - dst.top) / src.height * src.height,
      dst.left + (c.col - dst.left) / src.width * src.width⟩
    (src.height - 1) (src.width - 1)

/-- Copy a range into another, with its merges unless only text is copied. -/
def copyInto (src dst : Range) (mode : CopyMode) (series : Bool) (s : Sheet) : Sheet :=
  let (rows, written) := s.rows.copyBlock src dst mode series
  let s := { s with rows }
  match mode with
  | .text => s
  | .all | .format =>
    -- A merge that sticks out of its copy of the source arrives as a plain cell.
    let arrived := anchoredRanges written
    let whole := arrived.filter fun m => m.within (tileOf src dst m.first)
    let broken := arrived.filter fun m => !m.within (tileOf src dst m.first)
    let unmarked := broken.foldl (fun rows m =>
      rows.modifyCell m.first fun cell => { cell with merge := none }) s.rows
    -- What used to be merged there makes room for what arrived.
    let cleared := dropMerges (footprint src dst) none whole { s with rows := unmarked }
    { cleared with merges := whole.foldl Merges.add cleared.merges }

/-- Move a range so that its first cell lands on another one's, with its
    merges. Nothing is left to be pasted. -/
def moveInto (src dst : Range) (s : Sheet) : Sheet :=
  let cleared := dropMerges (footprint src (.single dst.first)) (some src) [] s
  { cleared with
    rows := cleared.rows.moveBlock src dst
    merges := cleared.merges.moveWithin src (src.first.displacementTo dst.first)
    clipboard := .clear }

/-- Paste what is on the clipboard at the selection. -/
def paste (s : Sheet) (mode : CopyMode) : Sheet × Outcome :=
  match s.clipboard with
  | .clear => (s, .ignored)
  | .copy src => match s.selection.range with
    | none => (s, .rejected .noSelection)
    | some dst => match s.checkPaste src dst with
      | some e => (s, .rejected e)
      | none => s.commit (copyInto src dst mode false)
  | .cut src => match s.selection.range with
    | none => (s, .rejected .noSelection)
    | some dst => match (s.checkCut src).or (s.checkPaste src (.single dst.first)) with
      | some e => (s, .rejected e)
      | none => s.commit (moveInto src dst)

/-- Fill a range from the selection, continuing series of numbers. -/
def fill (s : Sheet) (dst : Range) (mode : CopyMode) : Sheet × Outcome :=
  match s.selection.range with
  | none => (s, .rejected .noSelection)
  | some src => match s.checkPaste src dst with
    | some e => (s, .rejected e)
    | none => s.commit (copyInto src dst mode true)

/-- The texts of the cells that a text stands for: lines of pieces between
    tabs, without double quotes. -/
def textBlock (text : String) : List (List String) :=
  (Text.lines text.toList).map fun line =>
    (Text.splitOn '\t' (line.filter (· != '"'))).map String.ofList

/-- Type a text into the cells from the selection on. -/
def pasteText (s : Sheet) (text : String) : Sheet × Outcome :=
  s.commitOnSelection fun r s => { s with rows := s.rows.typeBlock r.first (textBlock text) }

/-- The selected cells as text, with tabs between cells and newlines between
    rows. -/
def selectedText (s : Sheet) : String :=
  match s.selection.range with
  | none => ""
  | some r =>
    String.intercalate "\n" ((List.range' r.top r.height).map fun row =>
      String.intercalate "\t" ((List.range' r.left r.width).map fun col =>
        s.rows.content ⟨row, col⟩))

end Sheet

end Worksheet
