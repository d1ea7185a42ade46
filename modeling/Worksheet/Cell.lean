import Worksheet.Json.Record

/-!
# Cells

What a sheet stores at one address.

Everything about a cell is optional, and a cell that is not stored means the
same as a stored default cell. A cell that anchors a merge keeps the number of
extra rows and columns the merge covers, and a locked cell refuses edits of
its text and being cleared. Exported sheets hold computed values in the text
and keep the formula beside it.

## Main definitions

* `Cell`: A stored cell.
* `Span`: The extra rows and columns of a merge.
* `CopyMode`, `ClearMode`: What part of a cell is copied or cleared.
* `Cell.receive`: What a cell becomes when another is copied onto it.
* `Cell.ofJson?`, `Cell.toJson`: A cell and its tree.
-/

namespace Worksheet

/-- The extra rows and columns that a merge covers past its anchor. -/
structure Span where
  rows : Nat
  cols : Nat
  deriving DecidableEq, Repr, Inhabited

namespace Span

/-- The span of a cell that anchors nothing. -/
def zero : Span := ⟨0, 0⟩

end Span

/-- A stored cell. -/
structure Cell where
  /-- What was typed; a formula starts with an equals sign. -/
  text : Option String := none
  /-- An index into the sheet's style table. -/
  style : Option Nat := none
  /-- The span of the merge that the cell anchors. -/
  merge : Option Span := none
  /-- Is the cell open to edits? -/
  editable : Bool := true
  /-- The formula behind an exported value. -/
  formula : Option String := none
  deriving DecidableEq, Repr, Inhabited

/-- What part of a cell a copy transfers. -/
inductive CopyMode where
  | all
  | text
  | format
  deriving DecidableEq, Repr

/-- What part of a cell is cleared. -/
inductive ClearMode where
  | all
  | text
  | format
  | merge
  deriving DecidableEq, Repr

/-- Does the text start with an equals sign? -/
def isFormulaText (s : String) : Bool :=
  s.toList.head? == some '='

namespace Cell

/-- The text, empty when there is none. -/
def content (c : Cell) : String := c.text.getD ""

/-- Does the cell hold a formula? -/
def isFormula (c : Cell) : Bool := isFormulaText c.content

/-- The span of the merge the cell anchors, zero when it anchors none. -/
def span (c : Cell) : Span := c.merge.getD .zero

/-- What the cell at a place becomes when `source` is copied onto it. A copy of
    the format keeps a merge span that the source does not bring. -/
def receive (mode : CopyMode) (source : Cell) (here : Option Cell) : Cell :=
  match mode with
  | .all => source
  | .text => { here.getD {} with text := source.text }
  | .format =>
    let target := here.getD {}
    { target with style := source.style, merge := source.merge.or target.merge }

/-- What remains of a cell that is open to edits after part of it is cleared. -/
def clear (mode : ClearMode) (c : Cell) : Option Cell :=
  match mode with
  | .all => none
  | .text => some { c with text := none }
  | .format => some { c with style := none, merge := none }
  | .merge => some { c with merge := none }

open Json

/-- Read a cell. -/
def ofJson? (form : Form) (j : Json) : Option Cell := do
  let fields ← record? form ["text", "style", "merge", "editable", "formula"] j
  let pair (j : Json) : Option Span := (indexPair? j).map fun p => ⟨p.1, p.2⟩
  return { text := ← optional? text? (find? "text" fields)
           style := ← optional? index? (find? "style" fields)
           merge := ← optional? pair (find? "merge" fields)
           editable := ← withDefault? bool? true (find? "editable" fields)
           formula := ← optional? text? (find? "formula" fields) }

/-- The tree of a cell. -/
def toJson (c : Cell) : Json :=
  .object (fieldIf "text" (c.text.map .string) ++
    fieldIf "style" (c.style.map ofIndex) ++
    fieldIf "merge" (c.merge.map fun s => .array [ofIndex s.rows, ofIndex s.cols]) ++
    (if c.editable then [] else [("editable", .bool false)]) ++
    fieldIf "formula" (c.formula.map .string))

end Cell

/-- The words for what a copy transfers. -/
def CopyMode.words : List (String × CopyMode) :=
  [("all", .all), ("text", .text), ("format", .format)]

/-- The words for what is cleared. -/
def ClearMode.words : List (String × ClearMode) :=
  [("all", .all), ("text", .text), ("format", .format), ("merge", .merge)]

end Worksheet
