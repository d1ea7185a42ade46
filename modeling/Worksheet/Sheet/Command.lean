import Worksheet.Sheet.Checking
import Worksheet.Sheet.Formatting
import Worksheet.Sheet.Geometry
import Worksheet.Sheet.Lines
import Worksheet.Sheet.Pasting

/-!
# Commands

Everything a user can do to a sheet, as data.

Each command stands for one operation with its arguments, so that a session
is a list of commands and a statement about every session is a statement
about lists. Replacing the sheet by a document is not among them: it brings
in a state that no command has made.

## Main definitions

* `Command`: One operation.
* `Sheet.run`: Carrying out a command.
* `Sheet.runAll`: Carrying out commands one after the other.

## Theorems

* `Sheet.runAll_append`: A session can be cut anywhere.
-/

namespace Worksheet

/-- One operation on a sheet. -/
inductive Command where
  | select (r : Range)
  | selectCell (c : CellRef)
  | selectRow (row : Nat)
  | selectColumn (col : Nat)
  | extendTo (c : CellRef)
  | typeText (c : CellRef) (text : String) (state : EditState)
  | typeActive (text : String) (state : EditState)
  | clearSelected (mode : ClearMode)
  | editSelected (e : CellEdit)
  | merge
  | unmerge
  | undo
  | redo
  | copy
  | cut
  | clearClipboard
  | paste (mode : CopyMode)
  | fill (dst : Range) (mode : CopyMode)
  | pasteText (text : String)
  | insertAt (axis : Axis) (index n : Nat)
  | deleteAt (axis : Axis) (a b : Nat)
  | insertSelected (axis : Axis) (n : Nat)
  | deleteSelected (axis : Axis)
  | setRowHeight (row : Nat) (h : Float)
  | setColumnWidth (col : Nat) (w : Float)
  | hideSelected
  | unhideBefore (axis : Axis) (index : Nat)
  | setFreeze (c : CellRef)
  | addRule (mode : String) (r : Range) (v : Validator)
  | removeRules
  | toggleFilter
  | setFilter (col : Nat) (order : Option SortOrder) (operator : FilterOperator)
      (values : List String)
  | refreshView
  | scrollX (x : Float)
  | scrollY (y : Float)
  deriving DecidableEq

namespace Sheet

/-- Carry out a command. -/
def run (s : Sheet) : Command → Sheet × Outcome
  | .select r => (s.select r, .applied)
  | .selectCell c => ((s.selectCell c).1, .applied)
  | .selectRow row => ((s.selectRow row).1, .applied)
  | .selectColumn col => ((s.selectColumn col).1, .applied)
  | .extendTo c => ((s.extendTo c).1, .applied)
  | .typeText c text state => s.typeText c text state
  | .typeActive text state => s.typeActive text state
  | .clearSelected mode => s.clearSelected mode
  | .editSelected e => s.editSelected e
  | .merge => s.merge
  | .unmerge => s.unmerge
  | .undo => s.undo
  | .redo => s.redo
  | .copy => s.copy
  | .cut => s.cut
  | .clearClipboard => (s.clearClipboard, .applied)
  | .paste mode => s.paste mode
  | .fill dst mode => s.fill dst mode
  | .pasteText text => s.pasteText text
  | .insertAt axis index n => s.insertAt axis index n
  | .deleteAt axis a b => s.deleteAt axis a b
  | .insertSelected axis n => s.insertSelected axis n
  | .deleteSelected axis => s.deleteSelected axis
  | .setRowHeight row h => s.setRowHeight row h
  | .setColumnWidth col w => s.setColumnWidth col w
  | .hideSelected => s.hideSelected
  | .unhideBefore axis index => s.unhideBefore axis index
  | .setFreeze c => s.setFreeze c
  | .addRule mode r v => s.addRule mode r v
  | .removeRules => s.removeRules
  | .toggleFilter => s.toggleFilter
  | .setFilter col order operator values => s.setFilter col order operator values
  | .refreshView => (s.refreshView, .applied)
  | .scrollX x => s.scrollX x
  | .scrollY y => s.scrollY y

/-- Carry out commands one after the other. -/
def runAll (s : Sheet) (commands : List Command) : Sheet :=
  commands.foldl (fun s c => (s.run c).1) s

/-- Carrying out one list after another is carrying out both in a row. -/
theorem runAll_append (s : Sheet) (cs cs' : List Command) :
    s.runAll (cs ++ cs') = (s.runAll cs).runAll cs' := by
  simp [runAll]

end Sheet

end Worksheet
