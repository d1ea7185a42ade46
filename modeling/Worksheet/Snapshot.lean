import Worksheet.Columns
import Worksheet.Filter.Basic
import Worksheet.Json.Reader
import Worksheet.Json.Writer
import Worksheet.Merges
import Worksheet.Style.Table
import Worksheet.Validation.Rules

/-!
# Snapshots

Everything about a sheet that is saved.

A snapshot is what is written to a document, what the history keeps, and what
a sheet can be replaced by. Reading one back gives the same snapshot as long
as its heights and widths are finite, since a document has no spelling for
infinities.

## Main definitions

* `Snapshot`: The saved state.
* `Snapshot.toText`, `Snapshot.ofText?`: The document.
-/

namespace Worksheet

/-- Everything about a sheet that is saved. -/
structure Snapshot where
  name : String := ""
  /-- The first cell that scrolls; the corner of the grid when all do. -/
  freeze : CellRef := .origin
  styles : StyleTable := {}
  merges : Merges := {}
  rows : Rows := { len := 0 }
  cols : Columns := { len := 0 }
  rules : List Rule := []
  filter : AutoFilter := {}
  deriving DecidableEq

namespace Snapshot

open Json

/-- The names of the fields, in the order they are written. -/
def fieldNames : List String :=
  ["name", "freeze", "styles", "merges", "rows", "cols", "validations", "autofilter"]

/-- Read a snapshot. Every field has a default. -/
def ofJson? (form : Form) (j : Json) : Option Snapshot := do
  let fields ← record? form fieldNames j
  let base : Snapshot := {}
  return { name := ← withDefault? text? base.name (find? "name" fields)
           freeze := ← withDefault? cell? base.freeze (find? "freeze" fields)
           styles := ← withDefault? (StyleTable.ofJson? form) base.styles (find? "styles" fields)
           merges := ← withDefault? Merges.ofJson? base.merges (find? "merges" fields)
           rows := ← withDefault? (Rows.ofJson? form) base.rows (find? "rows" fields)
           cols := ← withDefault? (Columns.ofJson? form) base.cols (find? "cols" fields)
           rules :=
             ← withDefault? (list? (Rule.ofJson? form)) base.rules (find? "validations" fields)
           filter :=
             ← withDefault? (AutoFilter.ofJson? form) base.filter (find? "autofilter" fields) }

/-- The tree of a snapshot. -/
def toJson (s : Snapshot) : Json :=
  .object [("name", .string s.name), ("freeze", ofCell s.freeze), ("styles", s.styles.toJson),
    ("merges", s.merges.toJson), ("rows", s.rows.toJson), ("cols", s.cols.toJson),
    ("validations", .array (s.rules.map Rule.toJson)), ("autofilter", s.filter.toJson)]

/-- The document of a snapshot. -/
def toText (s : Snapshot) : String := render s.toJson

/-- The snapshot that a document holds. -/
def ofText? (text : String) : Option Snapshot :=
  match parse? text with
  | some j => ofJson? .document j
  | none => none

end Snapshot

end Worksheet
