import Worksheet.Error
import Worksheet.Filter.RowView
import Worksheet.History
import Worksheet.Rows.Structure
import Worksheet.Settings
import Worksheet.Snapshot

/-!
# Sheets

One sheet with everything that belongs to it.

A sheet has what is saved, and beside it what belongs to the session: the
selection, the scroll position, the clipboard, the history, and the row view
of its filter. Every change goes through `commit`. It refuses a sheet that is
open for reading only, puts the present snapshot into the history, makes the
change, computes the row view anew, and reports one event with a new
revision. Whatever can make a change impossible is checked before, so a
refused operation leaves the sheet as it was.

## Main definitions

* `Sheet`: The state.
* `Outcome`: What became of an operation.
* `Sheet.snapshot`, `Sheet.restore`: The saved part.
* `Sheet.commit`: Making a change.
* `Sheet.undo`, `Sheet.redo`, `Sheet.load`: Going to another state.
-/

namespace Worksheet

/-- What is selected, and the active cell. -/
structure Selection where
  range : Option Range := none
  active : CellRef := .origin
  deriving DecidableEq, Repr

/-- What is to be pasted. -/
inductive Clipboard where
  | clear
  | copy (r : Range)
  | cut (r : Range)
  deriving DecidableEq, Repr

/-- The range that is to be pasted. -/
def Clipboard.range? : Clipboard → Option Range
  | .clear => none
  | .copy r => some r
  | .cut r => some r

/-- How far a sheet is scrolled past its frozen part, and the first row and
    column then shown. -/
structure Scroll where
  x : Float := 0.0
  y : Float := 0.0
  row : Nat := 0
  col : Nat := 0
  deriving DecidableEq

/-- What a sheet reports after a change. -/
inductive Event where
  /-- A change was made. -/
  | changed (revision : Nat)
  /-- Another state was restored. -/
  | restored (revision : Nat)
  deriving DecidableEq, Repr

/-- The revision that an event reports. -/
def Event.revision : Event → Nat
  | .changed n => n
  | .restored n => n

/-- What became of an operation. -/
inductive Outcome where
  /-- It was done. -/
  | applied
  /-- There was nothing to do, or nothing may be done. -/
  | ignored
  /-- It was refused, and the user is told why. -/
  | rejected (e : GridError)
  deriving DecidableEq, Repr

namespace Outcome

/-- Was the operation done? -/
def isApplied (o : Outcome) : Bool := o == .applied

/-- What the user is told. -/
def message? : Outcome → Option String
  | .rejected e => some e.message
  | _ => none

end Outcome

/-- A sheet. -/
structure Sheet where
  settings : Settings
  name : String
  freeze : CellRef := .origin
  styles : StyleTable := {}
  merges : Merges := {}
  rows : Rows
  cols : Columns
  rules : Rules := {}
  filter : AutoFilter := {}
  selection : Selection := {}
  scroll : Scroll := {}
  history : History := {}
  clipboard : Clipboard := .clear
  view : RowView := {}
  /-- The state before the edit that is being typed. -/
  pending : Option Snapshot := none
  revision : Nat := 0
  /-- Every event so far, the last one first. -/
  events : List Event := []

namespace Sheet

/-- A sheet without content. -/
def new (name : String) (settings : Settings) : Sheet :=
  { settings, name
    rows := { len := settings.rows.len }
    cols := { len := settings.cols.len } }

/-- The saved part of a sheet. -/
def snapshot (s : Sheet) : Snapshot :=
  { name := s.name
    freeze := s.freeze
    styles := s.styles
    merges := s.merges
    rows := s.rows
    cols := s.cols
    rules := s.rules.saved
    filter := s.filter }

/-- Compute the row view from the filter and the present texts. -/
def refreshView (s : Sheet) : Sheet :=
  { s with view := s.filter.rowView s.rows.content }

/-- Replace the saved part of a sheet. A snapshot without rows or columns gets
    as many as the settings say. -/
def restore (s : Sheet) (d : Snapshot) : Sheet :=
  let rowCount := if d.rows.len = 0 then s.settings.rows.len else d.rows.len
  let colCount := if d.cols.len = 0 then s.settings.cols.len else d.cols.len
  refreshView
    { s with
      name := d.name
      freeze := d.freeze
      styles := d.styles
      merges := d.merges
      rows := { d.rows with len := rowCount }
      cols := { d.cols with len := colCount }
      rules := .ofSaved d.rules
      filter := d.filter
      pending := none }

/-- Report an event with a new revision. -/
def emit (s : Sheet) (event : Nat → Event) : Sheet :=
  { s with revision := s.revision + 1, events := event (s.revision + 1) :: s.events }

/-- May the sheet be changed? -/
def isWritable (s : Sheet) : Bool := !s.settings.isReadOnly

/-- Make a change, unless the sheet is open for reading only. -/
def commit (s : Sheet) (change : Sheet → Sheet) : Sheet × Outcome :=
  if s.isWritable then
    let recorded :=
      { s with history := s.history.record s.snapshot.toText, pending := none }
    ((change recorded).refreshView.emit .changed, .applied)
  else (s, .ignored)

/-- Make a change that is about the selected range. -/
def commitOnSelection (s : Sheet) (change : Range → Sheet → Sheet) : Sheet × Outcome :=
  match s.selection.range with
  | some r => s.commit (change r)
  | none => (s, .ignored)

/-- Go to a restored state, if there is one. -/
def goTo (s : Sheet) : Restored Snapshot → Sheet × Outcome
  | .state d history => (({ s with history }.restore d).emit .restored, .applied)
  | .nothing => (s, .ignored)
  | .unreadable => (s, .ignored)

/-- Go back to the state before the last change. -/
def undo (s : Sheet) : Sheet × Outcome :=
  if s.isWritable then s.goTo (s.history.undo Snapshot.ofText? s.snapshot.toText)
  else (s, .ignored)

/-- Go forward to the state after the last change that was undone. -/
def redo (s : Sheet) : Sheet × Outcome :=
  if s.isWritable then s.goTo (s.history.redo Snapshot.ofText? s.snapshot.toText)
  else (s, .ignored)

/-- Replace the saved part of a sheet by a document. The history does not take
    notice. -/
def load (s : Sheet) (text : String) : Except GridError Sheet :=
  match Snapshot.ofText? text with
  | some d => .ok (s.restore d)
  | none => .error (.snapshot "malformed document")

end Sheet

end Worksheet
