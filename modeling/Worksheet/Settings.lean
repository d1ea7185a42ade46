import Worksheet.Formula.Evaluation
import Worksheet.Json.Reader
import Worksheet.Json.Writer
import Worksheet.Style.Record
import Worksheet.Toml.Reader

/-!
# Settings

How a sheet is configured.

Every setting has a default, so a document may give some of them or none. The
style is a single setting: a document that gives one replaces the default
style altogether. Settings that contradict one another are refused, with the
first contradiction as the reason.

## Main definitions

* `Settings`: The settings, with their defaults.
* `SettingsError`: Why settings are refused, with its message.
* `Settings.check`: The contradictions.
* `Settings.ofDocument`, `Settings.ofTables`: Reading a document.
* `Settings.toJson`: The tree of settings.
-/

namespace Worksheet

/-- Whether a sheet may be changed. -/
inductive Mode where
  | edit
  | read
  deriving DecidableEq, Repr

/-- The words for the modes. -/
def Mode.words : List (String × Mode) := [("edit", .edit), ("read", .read)]

/-- The word for a mode. -/
def Mode.word : Mode → String
  | .edit => "edit"
  | .read => "read"

/-- The rows of a new sheet. -/
structure RowSettings where
  len : Nat := 100
  height : Float := 25.0
  deriving DecidableEq

/-- The columns of a new sheet. -/
structure ColumnSettings where
  len : Nat := 26
  width : Float := 100.0
  /-- The width of the gutter with the row numbers. -/
  gutter : Float := 60.0
  /-- The least width that a column can be given. -/
  minWidth : Float := 60.0
  deriving DecidableEq

/-- The style of a cell for which nothing is set. -/
def defaultStyle : Style :=
  { background := some "#ffffff"
    align := some .left
    verticalAlign := some .middle
    wrap := some false
    strike := some false
    underline := some false
    color := some "#0a0a0a"
    font := some
      { name := some "Arial", size := some 10, bold := some false, italic := some false }
    format := some .normal }

/-- The settings of a sheet. -/
structure Settings where
  mode : Mode := .edit
  rows : RowSettings := {}
  cols : ColumnSettings := {}
  style : Style := defaultStyle
  /-- The longest chain of references that is followed. -/
  maxDepth : Nat := 256
  /-- The most cells that a range in a formula stands for. -/
  maxRangeCells : Nat := Formula.defaultRangeLimit
  deriving DecidableEq

/-- Why settings are refused. -/
inductive SettingsError where
  /-- The document cannot be read as settings. -/
  | malformed
  /-- The default height or width is zero or less. -/
  | notPositive
  /-- The least width is above the default width. -/
  | minWidth (least width : Float)
  /-- No reference could be followed. -/
  | noDepth
  /-- No range could stand for a cell. -/
  | noRangeCells

/-- What is wrong with settings that were read but contradict themselves. -/
def SettingsError.message : SettingsError → String
  | .malformed => "malformed document"
  | .notPositive => "default row height and column width must be positive"
  | .minWidth least width =>
    "min_width " ++ String.ofList (Number.plain least) ++ " exceeds default width " ++
      String.ofList (Number.plain width)
  | .noDepth => "max_eval_depth must be at least 1"
  | .noRangeCells => "max_range_cells must be at least 1"

namespace Settings

/-- The first contradiction among the settings, or the settings. -/
def check (s : Settings) : Except SettingsError Settings :=
  if s.rows.height ≤ 0.0 ∨ s.cols.width ≤ 0.0 then .error .notPositive
  else if s.cols.width < s.cols.minWidth then .error (.minWidth s.cols.minWidth s.cols.width)
  else if s.maxDepth = 0 then .error .noDepth
  else if s.maxRangeCells = 0 then .error .noRangeCells
  else .ok s

/-- Is the sheet open for reading only? -/
def isReadOnly (s : Settings) : Bool := s.mode == .read

/-- The limits that formulas are evaluated under. -/
def limits (s : Settings) : Formula.Limits :=
  { depth := s.maxDepth, rangeCells := s.maxRangeCells }

end Settings

open Json

/-- Read the settings of the rows. -/
def RowSettings.ofJson? (form : Form) (j : Json) : Option RowSettings := do
  let fields ← record? form ["len", "height"] j
  let base : RowSettings := {}
  return { len := ← withDefault? index? base.len (find? "len" fields)
           height := ← withDefault? float? base.height (find? "height" fields) }

/-- The tree of the settings of the rows. -/
def RowSettings.toJson (s : RowSettings) : Json :=
  .object [("len", ofIndex s.len), ("height", .float s.height)]

/-- Read the settings of the columns. -/
def ColumnSettings.ofJson? (form : Form) (j : Json) : Option ColumnSettings := do
  let fields ← record? form ["len", "width", "index_width", "min_width"] j
  let base : ColumnSettings := {}
  return { len := ← withDefault? index? base.len (find? "len" fields)
           width := ← withDefault? float? base.width (find? "width" fields)
           gutter := ← withDefault? float? base.gutter (find? "index_width" fields)
           minWidth := ← withDefault? float? base.minWidth (find? "min_width" fields) }

/-- The tree of the settings of the columns. -/
def ColumnSettings.toJson (s : ColumnSettings) : Json :=
  .object [("len", ofIndex s.len), ("width", .float s.width), ("index_width", .float s.gutter),
    ("min_width", .float s.minWidth)]

namespace Settings

/-- The names of the settings, in the order they are written. -/
def fieldNames : List String :=
  ["mode", "rows", "cols", "style", "max_eval_depth", "max_range_cells"]

/-- Read settings, without looking for contradictions. -/
def ofJson? (form : Form) (j : Json) : Option Settings := do
  let fields ← record? form fieldNames j
  let base : Settings := {}
  return { mode := ← withDefault? (choice? form Mode.words) base.mode (find? "mode" fields)
           rows := ← withDefault? (RowSettings.ofJson? form) base.rows (find? "rows" fields)
           cols := ← withDefault? (ColumnSettings.ofJson? form) base.cols (find? "cols" fields)
           style := ← withDefault? (Style.ofJson? form) base.style (find? "style" fields)
           maxDepth := ← withDefault? index? base.maxDepth (find? "max_eval_depth" fields)
           maxRangeCells :=
             ← withDefault? index? base.maxRangeCells (find? "max_range_cells" fields) }

/-- The tree of settings. -/
def toJson (s : Settings) : Json :=
  .object [("mode", .string s.mode.word), ("rows", s.rows.toJson), ("cols", s.cols.toJson),
    ("style", s.style.toJson), ("max_eval_depth", ofIndex s.maxDepth),
    ("max_range_cells", ofIndex s.maxRangeCells)]

/-- Settings out of a tree, if there is one and it holds no contradiction. -/
def ofTree (form : Form) (j : Option Json) : Except SettingsError Settings :=
  match j with
  | none => .error .malformed
  | some j => match ofJson? form j with
    | none => .error .malformed
    | some s => s.check

/-- Read settings from a document. -/
def ofDocument (text : String) : Except SettingsError Settings :=
  ofTree .document (Json.parse? text)

/-- Read settings from a document written as tables. -/
def ofTables (text : String) : Except SettingsError Settings :=
  ofTree .table (Toml.parse? text)

end Settings

end Worksheet
