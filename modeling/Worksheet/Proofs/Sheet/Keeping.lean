import Worksheet.Proofs.Sheet.Formatting
import Worksheet.Sheet.Command

/-!
# Changes of the Content

What is changed inside a transaction is the content, and nothing else.

It differs from command to command, but none of it is about the history, the revision
or the events. `Keeps` says that of one change. It also says that the sheet does not
run out of rows or columns, since a state without any would come back from the history
with as many as the settings say.

## Main definitions

* `Sheet.Keeps`: A change of the content and of nothing else.

## Theorems

* `Sheet.keeps_mergeRange`, `Sheet.keeps_copyInto`, `Sheet.keeps_insertLines` and others: What
  each change keeps.
-/

namespace Worksheet

namespace Rows

/-! ## The number of rows -/

theorem len_foldl {α : Type} {f : Rows → α → Rows} (h : ∀ s a, (f s a).len = s.len) (as : List α)
    (s : Rows) : (as.foldl f s).len = s.len := by
  induction as generalizing s with
  | nil => rfl
  | cons a as ih => exact (ih (f s a)).trans (h s a)

theorem len_clearCell (s : Rows) (mode : ClearMode) (c : CellRef) :
    (s.clearCell mode c).len = s.len := by
  unfold clearCell
  split
  · split
    · split <;> rfl
    · rfl
  · rfl

theorem len_clearCells (s : Rows) (mode : ClearMode) (r : Range) :
    (s.clearCells mode r).len = s.len :=
  len_foldl (fun s c => len_clearCell s mode c) r.cells s

theorem len_typeLine (s : Rows) (row col : Nat) (ts : List String) :
    (s.typeLine row col ts).len = s.len := by
  induction ts generalizing s col with
  | nil => rfl
  | cons t ts ih => exact ih _ _

theorem len_typeBlock (s : Rows) (c : CellRef) (lines : List (List String)) :
    (s.typeBlock c lines).len = s.len := by
  induction lines generalizing s c with
  | nil => rfl
  | cons line lines ih => exact (ih _ _).trans (len_typeLine s _ _ line)

theorem len_writeAll (s : Rows) (mode : CopyMode) (written : List (CellRef × Cell)) :
    (s.writeAll mode written).len = s.len := by
  refine len_foldl (fun s w => ?_) written s
  rfl

theorem len_moveBlock (s : Rows) (src dst : Range) : (s.moveBlock src dst).len = s.len := by
  unfold moveBlock
  split
  · rfl
  · refine (len_foldl (fun s w => ?_) _ _).trans rfl
    rfl

end Rows

namespace Columns

theorem len_foldl_setHidden (hidden : Bool) (is : List Nat) (s : Columns) :
    (is.foldl (fun s i => s.setHidden i hidden) s).len = s.len := by
  induction is generalizing s with
  | nil => rfl
  | cons i is ih => exact ih _

end Columns

namespace Sheet

/-! ## Changes of the content -/

/-- Does a change leave alone everything but the content? The sheet still has
    rows and columns if it had. -/
structure Keeps (s s' : Sheet) : Prop where
  settings : s'.settings = s.settings
  history : s'.history = s.history
  pending : s'.pending = s.pending
  revision : s'.revision = s.revision
  events : s'.events = s.events
  rows : s'.rows.len = 0 → s.rows.len = 0
  cols : s'.cols.len = 0 → s.cols.len = 0

namespace Keeps

variable {s s' s'' : Sheet}

theorem refl (s : Sheet) : Keeps s s := ⟨rfl, rfl, rfl, rfl, rfl, id, id⟩

theorem trans (h : Keeps s s') (h' : Keeps s' s'') : Keeps s s'' where
  settings := h'.settings.trans h.settings
  history := h'.history.trans h.history
  pending := h'.pending.trans h.pending
  revision := h'.revision.trans h.revision
  events := h'.events.trans h.events
  rows := h.rows ∘ h'.rows
  cols := h.cols ∘ h'.cols

/-- Only the cells are changed, and no row is added or taken away. -/
theorem of_rows {rows : Rows} (h : rows.len = s.rows.len) : Keeps s { s with rows } :=
  ⟨rfl, rfl, rfl, rfl, rfl, fun hrows => h.symm.trans hrows, id⟩

end Keeps

theorem keeps_drawBorders (mode : BorderMode) (e : BorderEdge) (r : Range) (s : Sheet) :
    Keeps s (s.drawBorders mode e r) :=
  drawBorders_keeps (P := Keeps s) (fun _ _ _ h => h.trans ⟨rfl, rfl, rfl, rfl, rfl, id, id⟩)
    mode e r (.refl s)

theorem keeps_insertFunction (f : Formula.Function) (r : Range) (s : Sheet) :
    Keeps s (s.insertFunction f r) :=
  insertFunction_keeps (P := Keeps s) (fun _ _ _ h => h.trans ⟨rfl, rfl, rfl, rfl, rfl, id, id⟩)
    f r (.refl s)

theorem keeps_editStyles (edit : Style → Style) (r : Range) (s : Sheet) :
    Keeps s (r.cells.foldl (editStyle edit) s) :=
  foldl_keeps (P := Keeps s) (f := editStyle edit)
    (fun _ _ h => h.trans ⟨rfl, rfl, rfl, rfl, rfl, id, id⟩) r.cells (.refl s)

theorem keeps_setEditable (on : Bool) (r : Range) (s : Sheet) : Keeps s (s.setEditable on r) := by
  refine .of_rows (Rows.len_foldl (fun rows c => ?_) r.cells s.rows)
  rfl

theorem keeps_mergeRange (r : Range) (s : Sheet) : Keeps s (s.mergeRange r) where
  settings := rfl
  history := rfl
  pending := rfl
  revision := rfl
  events := rfl
  rows h := (Rows.len_clearCells s.rows .all r).symm.trans h
  cols := id

theorem keeps_unmergeRange (r : Range) (s : Sheet) : Keeps s (s.unmergeRange r) where
  settings := rfl
  history := rfl
  pending := rfl
  revision := rfl
  events := rfl
  rows h := (Rows.len_clearCell s.rows .merge r.first).symm.trans h
  cols := id

theorem keeps_dropMerges (inside : Range) (keep : Option Range) (written : List Range) (s : Sheet) :
    Keeps s (s.dropMerges inside keep written) := by
  refine foldl_keeps (P := Keeps s) (fun t m h => h.trans ?_) _ (.refl s)
  -- A merge is dropped with its mark, unless its first cell was just written.
  refine ⟨rfl, rfl, rfl, rfl, rfl, fun hrows => ?_, id⟩
  simp only [dropMerge] at hrows
  split at hrows
  · exact hrows
  · exact (Rows.len_clearCell t.rows .merge m.first).symm.trans hrows

theorem keeps_copyInto (src dst : Range) (mode : CopyMode) (series : Bool) (s : Sheet) :
    Keeps s (s.copyInto src dst mode series) := by
  have hcopied : Keeps s { s with rows := (s.rows.copyBlock src dst mode series).1 } :=
    .of_rows (Rows.len_writeAll _ _ _)
  simp only [copyInto]
  split
  · exact hcopied
  -- Taking marks off cells, dropping merges, and registering others.
  all_goals
    refine (hcopied.trans ((Keeps.of_rows (Rows.len_foldl (fun rows m => ?_) _ _)).trans
      (keeps_dropMerges _ _ _ _))).trans ⟨rfl, rfl, rfl, rfl, rfl, id, id⟩
    rfl

theorem keeps_moveInto (src dst : Range) (s : Sheet) : Keeps s (s.moveInto src dst) := by
  refine (keeps_dropMerges _ _ _ s).trans ⟨rfl, rfl, rfl, rfl, rfl, fun hrows => ?_, id⟩
  exact (Rows.len_moveBlock _ src dst).symm.trans hrows

theorem keeps_shiftMerges (axis : Axis) (index : Nat) (n : Int) (s : Sheet) :
    Keeps s (s.shiftMerges axis index n) := by
  refine ⟨rfl, rfl, rfl, rfl, rfl, fun hrows => ?_, id⟩
  refine (Rows.len_foldl (fun rows c => ?_) _ _).symm.trans hrows
  rfl

theorem keeps_insertLines (axis : Axis) (index n : Nat) (s : Sheet) :
    Keeps s (s.insertLines axis index n) := by
  unfold insertLines
  refine Keeps.trans ?_ (keeps_shiftMerges axis index _ _)
  cases axis with
  | row => exact ⟨rfl, rfl, rfl, rfl, rfl, Nat.eq_zero_of_add_eq_zero_right, id⟩
  | column => exact ⟨rfl, rfl, rfl, rfl, rfl, id, Nat.eq_zero_of_add_eq_zero_right⟩

theorem keeps_deleteLines {axis : Axis} {first last : Nat} {s : Sheet}
    (h : last - first + 1 < s.lineCount axis) : Keeps s (s.deleteLines axis first last) := by
  unfold deleteLines
  refine Keeps.trans ?_ (keeps_shiftMerges axis first _ _)
  cases axis with
  | row =>
    refine ⟨rfl, rfl, rfl, rfl, rfl, fun hrows => ?_, id⟩
    -- Fewer rows are deleted than there are.
    exact absurd hrows (Nat.sub_ne_zero_of_lt h)
  | column =>
    refine ⟨rfl, rfl, rfl, rfl, rfl, id, fun hcols => ?_⟩
    exact absurd hcols (Nat.sub_ne_zero_of_lt h)

theorem keeps_hideRows (r : Range) (s : Sheet) : Keeps s (s.hideRows r) := by
  refine .of_rows (Rows.len_foldl (fun rows i => ?_) _ s.rows)
  rfl

theorem keeps_hideColumns (r : Range) (s : Sheet) : Keeps s (s.hideColumns r) :=
  ⟨rfl, rfl, rfl, rfl, rfl, id, fun h => (Columns.len_foldl_setHidden true _ s.cols).symm.trans h⟩

end Sheet

end Worksheet
