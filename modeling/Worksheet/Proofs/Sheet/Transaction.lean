import Worksheet.Proofs.Sheet.Keeping

/-!
# Transactions

A change is made as a whole or not at all.

Commands differ in their role. Some are about the session and leave the saved
state alone, typing that goes on is no change yet, undoing and redoing travel
between states, and all others are transactions. A transaction that is refused
gives back the sheet it was given. One that is applied puts the state before it
on top of the past, leaves nothing to redo, and reports one event with the next
revision. What is changed inside it is about none of that, so a transaction is as
good as the commit around it.

## Main definitions

* `Command.role`: What a command is about.
* `Sheet.Committed`: What a transaction leaves behind.
* `Sheet.stateBefore`: The state that a transaction puts into the history.

## Theorems

* `Sheet.run_transaction`: A transaction is made as a whole or not at all.
* `Sheet.run_session`: A command about the session leaves the saved state alone.
* `Sheet.run_input`, `Sheet.run_input_ignored`: Typing that goes on puts aside the state
  before it, or does nothing at all.
-/

namespace Worksheet

/-- What a command is about. -/
inductive Role where
  /-- What is selected, what is shown, and the clipboard. -/
  | session
  /-- A text that is still being typed. -/
  | input
  /-- The state before, from the history. -/
  | undo
  /-- The state after, from the history. -/
  | redo
  /-- A change of the saved state. -/
  | transaction
  deriving DecidableEq, Repr

/-- What a command is about. -/
def Command.role : Command → Role
  | .select _ | .selectCell _ | .selectRow _ | .selectColumn _ | .extendTo _ => .session
  | .copy | .cut | .clearClipboard | .refreshView | .scrollX _ | .scrollY _ => .session
  | .typeText _ _ .input | .typeActive _ .input => .input
  | .undo => .undo
  | .redo => .redo
  | .typeText _ _ .finished | .typeActive _ .finished => .transaction
  | .clearSelected _ | .editSelected _ | .merge | .unmerge => .transaction
  | .paste _ | .fill _ _ | .pasteText _ => .transaction
  | .insertAt _ _ _ | .deleteAt _ _ _ | .insertSelected _ _ | .deleteSelected _ => .transaction
  | .setRowHeight _ _ | .setColumnWidth _ _ | .hideSelected | .unhideBefore _ _ => .transaction
  | .setFreeze _ | .addRule _ _ _ | .removeRules => .transaction
  | .toggleFilter | .setFilter _ _ _ _ => .transaction

namespace Sheet

/-! ## Transactions -/

/-- What a transaction leaves behind: the state before it on top of the past,
    nothing to redo, nothing put aside, and one event with the next revision. The
    sheet is not open for reading only. -/
structure Committed (s : Sheet) (before : Snapshot) (s' : Sheet) : Prop where
  history : s'.history = ⟨before.toText :: s.history.past, []⟩
  pending : s'.pending = none
  revision : s'.revision = s.revision + 1
  events : s'.events = .changed (s.revision + 1) :: s.events
  settings : s'.settings = s.settings
  rows : s'.rows.len = 0 → s.rows.len = 0
  cols : s'.cols.len = 0 → s.cols.len = 0
  writable : s.isWritable = true

/-- The state that a transaction puts into the history. Typing that is finished
    goes back to where it began. -/
def stateBefore (s : Sheet) : Command → Snapshot
  | .typeText _ _ .finished | .typeActive _ .finished => s.pending.getD s.snapshot
  | _ => s.snapshot

/-- Either a transaction gives back the sheet it was given, or it is made. -/
inductive AllOrNothing (s : Sheet) (before : Snapshot) : Sheet × Outcome → Prop where
  | refused {o : Outcome} (h : o ≠ .applied) : AllOrNothing s before (s, o)
  | made {s' : Sheet} (h : Committed s before s') : AllOrNothing s before (s', .applied)

namespace AllOrNothing

variable {s : Sheet}

theorem ignored {before : Snapshot} : AllOrNothing s before (s, .ignored) :=
  .refused (by intro h; cases h)

theorem rejected {before : Snapshot} (e : GridError) : AllOrNothing s before (s, .rejected e) :=
  .refused (by intro h; cases h)

/-- A commit makes the change or refuses it, whatever is changed. -/
theorem of_commit {change : Sheet → Sheet} (h : ∀ t : Sheet, t.rows = s.rows → t.cols = s.cols →
    Keeps t (change t)) : AllOrNothing s s.snapshot (s.commit change) := by
  unfold Sheet.commit
  by_cases hwritable : s.isWritable = true
  · rw [if_pos hwritable]
    -- The history has taken note when the change is made, and the change leaves that alone.
    have hkeeps :=
      h { s with history := s.history.record s.snapshot.toText, pending := none } rfl rfl
    refine .made ⟨hkeeps.history, hkeeps.pending, ?_, ?_, hkeeps.settings, hkeeps.rows, hkeeps.cols,
      hwritable⟩
    · exact congrArg (· + 1) hkeeps.revision
    · simp only [emit, refreshView, hkeeps.revision, hkeeps.events]
  · rw [if_neg hwritable]
    exact ignored

theorem of_commitOnSelection {change : Range → Sheet → Sheet} (h : ∀ r t, Keeps t (change r t)) :
    AllOrNothing s s.snapshot (s.commitOnSelection change) := by
  unfold Sheet.commitOnSelection
  split
  · exact of_commit fun t _ _ => h _ t
  · exact ignored

end AllOrNothing

section

variable (s : Sheet)

theorem allOrNothing_typeText (c : CellRef) (text : String) :
    AllOrNothing s (s.pending.getD s.snapshot) (s.typeText c text .finished) := by
  unfold typeText
  by_cases hwritable : s.isWritable = true
  · rw [if_pos hwritable]
    exact .made ⟨rfl, rfl, rfl, rfl, rfl, id, id, hwritable⟩
  · rw [if_neg hwritable]
    exact .ignored

theorem allOrNothing_typeActive (text : String) :
    AllOrNothing s (s.pending.getD s.snapshot) (s.typeActive text .finished) := by
  have htyped := allOrNothing_typeText s s.activeRef text
  simp only [typeActive]
  -- Only the filter and the view follow the text, which are not about the history.
  generalize s.typeText s.activeRef text .finished = result at htyped ⊢
  cases htyped with
  | made h =>
    exact .made ⟨h.history, h.pending, h.revision, h.events, h.settings, h.rows, h.cols, h.writable⟩
  | @refused o h =>
    cases o with
    | applied => exact absurd rfl h
    | ignored => exact .ignored
    | rejected e => exact .rejected e

theorem allOrNothing_clearSelected (mode : ClearMode) :
    AllOrNothing s s.snapshot (s.clearSelected mode) := by
  refine .of_commitOnSelection fun r t => ?_
  have hcleared : Keeps t { t with rows := t.rows.clearCells mode r } :=
    .of_rows (Rows.len_clearCells t.rows mode r)
  cases mode with
  | all | format => exact hcleared.trans ⟨rfl, rfl, rfl, rfl, rfl, id, id⟩
  | text | merge => exact hcleared

theorem allOrNothing_merge : AllOrNothing s s.snapshot s.merge := by
  unfold merge
  split
  · exact .rejected _
  · split
    · exact .ignored
    · split
      · exact .rejected _
      · exact .of_commit fun t _ _ => keeps_mergeRange _ t

theorem allOrNothing_unmerge : AllOrNothing s s.snapshot s.unmerge := by
  unfold unmerge
  split
  · exact .of_commitOnSelection keeps_unmergeRange
  · exact .ignored

theorem allOrNothing_editSelected (e : CellEdit) :
    AllOrNothing s s.snapshot (s.editSelected e) := by
  unfold editSelected
  split
  · exact .ignored
  · cases e with
    | style edit => exact .of_commitOnSelection fun r t => keeps_editStyles _ r t
    | border mode line color => exact .of_commitOnSelection fun r t => keeps_drawBorders mode _ r t
    | merge on => cases on with
      | true => exact allOrNothing_merge s
      | false => exact allOrNothing_unmerge s
    | editable on => exact .of_commitOnSelection fun r t => keeps_setEditable on r t
    | function f => exact .of_commitOnSelection fun r t => keeps_insertFunction f r t

theorem allOrNothing_paste (mode : CopyMode) : AllOrNothing s s.snapshot (s.paste mode) := by
  unfold paste
  split
  · exact .ignored
  · split
    · exact .rejected _
    · split
      · exact .rejected _
      · exact .of_commit fun t _ _ => keeps_copyInto _ _ mode false t
  · split
    · exact .rejected _
    · split
      · exact .rejected _
      · exact .of_commit fun t _ _ => keeps_moveInto _ _ t

theorem allOrNothing_fill (dst : Range) (mode : CopyMode) :
    AllOrNothing s s.snapshot (s.fill dst mode) := by
  unfold fill
  split
  · exact .rejected _
  · split
    · exact .rejected _
    · exact .of_commit fun t _ _ => keeps_copyInto _ dst mode true t

theorem allOrNothing_insertAt (axis : Axis) (index n : Nat) :
    AllOrNothing s s.snapshot (s.insertAt axis index n) := by
  unfold insertAt
  split
  · exact .ignored
  · exact .of_commit fun t _ _ => keeps_insertLines axis index n t

theorem allOrNothing_deleteAt (axis : Axis) (a b : Nat) :
    AllOrNothing s s.snapshot (s.deleteAt axis a b) := by
  simp only [deleteAt]
  split
  · exact .ignored
  · rename_i hsome
    refine .of_commit fun t hrows hcols => keeps_deleteLines ?_
    -- The lines were counted before the commit, and the commit counts the same.
    have hcount : t.lineCount axis = s.lineCount axis := by
      simp only [lineCount, hrows, hcols]
    omega

theorem allOrNothing_hideSelected : AllOrNothing s s.snapshot s.hideSelected := by
  unfold hideSelected
  split
  · split
    · exact .of_commit fun t _ _ => keeps_hideColumns _ t
    · split
      · exact .of_commit fun t _ _ => keeps_hideRows _ t
      · exact .ignored
  · exact .ignored

theorem allOrNothing_unhideBefore (axis : Axis) (index : Nat) :
    AllOrNothing s s.snapshot (s.unhideBefore axis index) := by
  refine .of_commit fun t _ _ => ?_
  cases axis with
  | row =>
    refine .of_rows (Rows.len_foldl (fun rows i => ?_) _ t.rows)
    rfl
  | column =>
    exact ⟨rfl, rfl, rfl, rfl, rfl, id,
      fun h => (Columns.len_foldl_setHidden false _ t.cols).symm.trans h⟩

/-- A transaction is made as a whole or not at all. -/
theorem allOrNothing_run {c : Command} (hc : c.role = .transaction) :
    AllOrNothing s (s.stateBefore c) (s.run c) := by
  cases c with
  | select | selectCell | selectRow | selectColumn | extendTo | undo | redo | copy | cut
  | clearClipboard | refreshView | scrollX | scrollY => cases hc
  | typeText c text state => cases state with
    | input => cases hc
    | finished => exact allOrNothing_typeText s c text
  | typeActive text state => cases state with
    | input => cases hc
    | finished => exact allOrNothing_typeActive s text
  | clearSelected mode => exact allOrNothing_clearSelected s mode
  | editSelected e => exact allOrNothing_editSelected s e
  | merge => exact allOrNothing_merge s
  | unmerge => exact allOrNothing_unmerge s
  | paste mode => exact allOrNothing_paste s mode
  | fill dst mode => exact allOrNothing_fill s dst mode
  | pasteText text => exact .of_commitOnSelection fun r t => .of_rows (Rows.len_typeBlock _ _ _)
  | insertAt axis index n => exact allOrNothing_insertAt s axis index n
  | deleteAt axis a b => exact allOrNothing_deleteAt s axis a b
  | insertSelected axis n =>
    simp only [run, insertSelected]
    split
    · exact allOrNothing_insertAt s axis _ n
    · exact .ignored
  | deleteSelected axis =>
    simp only [run, deleteSelected]
    split
    · exact allOrNothing_deleteAt s axis _ _
    · exact .ignored
  | setRowHeight | setColumnWidth | setFreeze | addRule =>
    simp only [run]
    exact .of_commit fun t _ _ => ⟨rfl, rfl, rfl, rfl, rfl, id, id⟩
  | hideSelected => exact allOrNothing_hideSelected s
  | unhideBefore axis index => exact allOrNothing_unhideBefore s axis index
  | removeRules => exact .of_commitOnSelection fun r t => ⟨rfl, rfl, rfl, rfl, rfl, id, id⟩
  | toggleFilter =>
    simp only [run, toggleFilter]
    split
    · exact .of_commit fun t _ _ => ⟨rfl, rfl, rfl, rfl, rfl, id, id⟩
    · exact .of_commitOnSelection fun r t => ⟨rfl, rfl, rfl, rfl, rfl, id, id⟩
  | setFilter col order operator values =>
    simp only [run, setFilter]
    split
    · exact .of_commit fun t _ _ => ⟨rfl, rfl, rfl, rfl, rfl, id, id⟩
    · exact .ignored

end

/-- A transaction that is not applied gives back the sheet it was given. One that
    is applied puts the state before it on top of the past, leaves nothing to redo,
    and reports one event with the next revision. -/
theorem run_transaction (s : Sheet) (c : Command) (hc : c.role = .transaction) :
    ((s.run c).2 ≠ .applied → (s.run c).1 = s) ∧
    ((s.run c).2 = .applied →
      (s.run c).1.history = ⟨(s.stateBefore c).toText :: s.history.past, []⟩ ∧
      (s.run c).1.pending = none ∧
      (s.run c).1.revision = s.revision + 1 ∧
      (s.run c).1.events = .changed (s.revision + 1) :: s.events) := by
  have hrun := allOrNothing_run s hc
  generalize s.run c = result at hrun ⊢
  cases hrun with
  | refused hrefused => exact ⟨fun _ => rfl, fun happlied => absurd happlied hrefused⟩
  | made hmade =>
    refine ⟨fun hrefused => absurd rfl hrefused, fun _ => ?_⟩
    exact ⟨hmade.history, hmade.pending, hmade.revision, hmade.events⟩

/-- A text that was typed in two goes is one change, from before the first of them. -/
theorem run_transaction_typed :
    let typing := ((Sheet.new "" {}).run (.typeText ⟨0, 0⟩ "1" .input)).1
    let typed := (typing.run (.typeText ⟨0, 0⟩ "12" .finished)).1
    typed.history = ⟨[(Sheet.new "" {}).snapshot.toText], []⟩ ∧ typed.pending = none ∧
      typed.revision = 2 ∧ typed.events = [.changed 2, .changed 1] :=
  (run_transaction _ (.typeText ⟨0, 0⟩ "12" .finished) rfl).2 rfl

/-! ## Commands that are no transactions -/

/-- What a command about the session leaves alone. -/
structure SameState (s s' : Sheet) : Prop where
  snapshot : s'.snapshot = s.snapshot
  history : s'.history = s.history
  pending : s'.pending = s.pending
  settings : s'.settings = s.settings

theorem sameState_scroll (s : Sheet) (scroll : Scroll) (here : Bool) :
    SameState s (if here then (s, Outcome.ignored) else ({ s with scroll }, .applied)).1 := by
  split <;> exact ⟨rfl, rfl, rfl, rfl⟩

/-- A command about the session leaves the saved state alone, and the history. -/
theorem run_session (s : Sheet) {c : Command} (hc : c.role = .session) :
    SameState s (s.run c).1 := by
  cases c with
  | select | selectCell | selectRow | selectColumn | extendTo | clearClipboard | refreshView =>
    exact ⟨rfl, rfl, rfl, rfl⟩
  | copy =>
    simp only [run, copy]
    split <;> exact ⟨rfl, rfl, rfl, rfl⟩
  | cut =>
    simp only [run, cut]
    split <;> exact ⟨rfl, rfl, rfl, rfl⟩
  | scrollX x =>
    simp only [run, scrollX]
    exact sameState_scroll s _ _
  | scrollY y =>
    simp only [run, scrollY]
    exact sameState_scroll s _ _
  | typeText c text state | typeActive text state => cases state <;> cases hc
  | _ => cases hc

/-- What typing that goes on does: the state before it is put aside, unless an
    earlier one was, and the history does not take note. -/
structure PutAside (s s' : Sheet) : Prop where
  pending : s'.pending = some (s.pending.getD s.snapshot)
  history : s'.history = s.history
  settings : s'.settings = s.settings
  rows : s'.rows.len = s.rows.len
  cols : s'.cols = s.cols

/-- Typing that goes on puts aside the state before it. -/
theorem run_input {s : Sheet} (hs : s.isWritable = true) {c : Command} (hc : c.role = .input) :
    PutAside s (s.run c).1 := by
  cases c with
  | typeText c text state => cases state with
    | input =>
      simp only [run, typeText, if_pos hs]
      exact ⟨rfl, rfl, rfl, rfl, rfl⟩
    | finished => cases hc
  | typeActive text state => cases state with
    | input =>
      simp only [run, typeActive, typeText, if_pos hs]
      exact ⟨rfl, rfl, rfl, rfl, rfl⟩
    | finished => cases hc
  | _ => cases hc

/-- Typing into a sheet that is open for reading only does nothing. -/
theorem run_input_ignored {s : Sheet} (hs : ¬s.isWritable = true) {c : Command}
    (hc : c.role = .input) : s.run c = (s, .ignored) := by
  cases c with
  | typeText c text state => simp only [run, typeText, if_neg hs]
  | typeActive text state => simp only [run, typeActive, typeText, if_neg hs]
  | _ => cases hc

end Sheet

end Worksheet
