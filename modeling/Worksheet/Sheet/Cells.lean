import Worksheet.Rows.Export
import Worksheet.Sheet.State

/-!
# Cells of a Sheet

Reading cells, evaluating them, and typing into them.

A text that is still being typed is shown at once but is no change yet: the
state before the typing began is put aside, and goes into the history when
the text is finished. The active cell is a position on the screen, so typing
into it first finds the row that is shown there; the filter on its column
follows the edit, and would otherwise hide the row that was just changed.

## Main definitions

* `styleAt?`, `effectiveStyle`: The style of a cell.
* `evaluate`, `display`: What a cell shows.
* `typeText`, `typeActive`: Typing.
* `clearSelected`: Clearing the selected cells.
* `activeCell?`, `activeStyle`: The active cell.
-/

namespace Worksheet

/-- Is a text still being typed? -/
inductive EditState where
  | input
  | finished
  deriving DecidableEq, Repr

namespace Sheet

/-- A cell, as stored. -/
def cell? (s : Sheet) (c : CellRef) : Option Cell := s.rows.cell? c

/-- The style that a cell sets. -/
def styleAt? (s : Sheet) (c : CellRef) : Option Style :=
  match s.cell? c with
  | some cell => cell.style.bind s.styles.get?
  | none => none

/-- The style that a cell is shown with. -/
def effectiveStyle (s : Sheet) (c : CellRef) : Style :=
  match s.styleAt? c with
  | some style => style.onto s.settings.style
  | none => s.settings.style

/-- The value of a cell. -/
def evaluate (s : Sheet) (c : CellRef) : Formula.Value :=
  (Formula.evaluateCell s.settings.limits s.rows.lookup c).1

/-- The text that a cell shows: of a formula its value, under the format of
    the cell. -/
def display (s : Sheet) (c : CellRef) : String :=
  let text := s.rows.content c
  let shown := if isFormulaText text then (s.evaluate c).toText else text
  ((s.effectiveStyle c).format.getD .normal).render shown

/-- The rows with values in place of formulas. -/
def exportedRows (s : Sheet) : Rows := s.rows.exported s.settings.limits

/-- Type a text into a cell, and check it against the rules. -/
def typeText (s : Sheet) (c : CellRef) (text : String) (state : EditState) : Sheet × Outcome :=
  if s.isWritable then
    let typed := match state with
      | .input =>
        { s with pending := some (s.pending.getD s.snapshot), rows := s.rows.setText c text }
      | .finished =>
        let before := s.pending.getD s.snapshot
        refreshView
          { s with
            pending := none
            history := s.history.record before.toText
            rows := s.rows.setText c text }
    ({ typed with rules := typed.rules.validate c text }.emit .changed, .applied)
  else (s, .ignored)

/-- The stored cell that is shown as the active one. -/
def activeRef (s : Sheet) : CellRef :=
  ⟨s.view.toStorage s.selection.active.row, s.selection.active.col⟩

/-- Type a text into the active cell. The filter of its column follows. -/
def typeActive (s : Sheet) (text : String) (state : EditState) : Sheet × Outcome :=
  let c := s.activeRef
  match s.typeText c text state with
  | (typed, .applied) =>
    let followed := { typed with filter := typed.filter.follow c.col (s.rows.content c) text }
    (if state = .finished then followed.refreshView else followed, .applied)
  | refused => refused

/-- Clear part of every selected cell. Clearing formats removes the merges
    inside the selection as well. -/
def clearSelected (s : Sheet) (mode : ClearMode) : Sheet × Outcome :=
  s.commitOnSelection fun r s =>
    let cleared := { s with rows := s.rows.clearCells mode r }
    match mode with
    | .all | .format => { cleared with merges := cleared.merges.removeWithin r }
    | .text | .merge => cleared

/-- The cell that is shown as the active one. -/
def activeCell? (s : Sheet) : Option Cell := s.rows.cell? s.activeRef

/-- The style at the active position. -/
def activeStyle (s : Sheet) : Style := s.effectiveStyle s.selection.active

end Sheet

end Worksheet
