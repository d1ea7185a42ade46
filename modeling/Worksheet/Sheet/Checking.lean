import Worksheet.Sheet.State

/-!
# Rules and Filters of a Sheet

What may be typed where, and which rows are shown.

Rules are added to a range and removed from the selection. The filter is
turned on over the selection, and the row view follows every change of it.

## Main definitions

* `addRule`, `removeRules`, `activeValidator?`, `markAt?`: Rules.
* `toggleFilter`, `setFilter`, `filterItems`: The filter.
-/

namespace Worksheet

namespace Sheet

/-- Let a validator cover a range. -/
def addRule (s : Sheet) (mode : String) (r : Range) (v : Validator) : Sheet × Outcome :=
  s.commit fun s => { s with rules := s.rules.add mode r v }

/-- Let no rule cover the selection. -/
def removeRules (s : Sheet) : Sheet × Outcome :=
  s.commitOnSelection fun r s => { s with rules := s.rules.remove r }

/-- The validator that decides at the active position. -/
def activeValidator? (s : Sheet) : Option Validator :=
  (s.rules.ruleAt? s.selection.active).map Rule.validator

/-- The mark that a refused text has left at a cell. -/
def markAt? (s : Sheet) (c : CellRef) : Option Rejection := s.rules.markAt? c

/-- Can a filter be turned on? -/
def canFilter (s : Sheet) : Bool := !s.filter.active

/-- Turn the filter off, or on over the selection. -/
def toggleFilter (s : Sheet) : Sheet × Outcome :=
  if s.filter.active then s.commit fun s => { s with filter := .off }
  else s.commitOnSelection fun r s => { s with filter := { s.filter with range := some r } }

/-- Set the filter and the sort of a column. -/
def setFilter (s : Sheet) (col : Nat) (order : Option SortOrder) (operator : FilterOperator)
    (values : List String) : Sheet × Outcome :=
  if s.filter.active then
    s.commit fun s =>
      { s with filter := (s.filter.setFilter col operator values).setSort col order }
  else (s, .ignored)

/-- The values of a column under the filter's header, with their counts. -/
def filterItems (s : Sheet) (col : Nat) : List (String × Nat) :=
  s.filter.items col s.rows.content

end Sheet

end Worksheet
