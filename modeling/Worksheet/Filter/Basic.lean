import Worksheet.Json.Record
import Worksheet.Number.Notation

/-!
# Filters

Which rows of a table are shown, and in which order.

An auto-filter stands over a range whose first row is the header. It has at
most one filter for a column, and a row is shown when its cells pass all of
them. A filter compares as numbers when both texts spell numbers, and by the
order of their characters otherwise. The filter never moves data, and its
sort orders rows by where they are stored, not by what they hold.

## Main definitions

* `Filter`, `Filter.accepts`: One filter.
* `AutoFilter`: The range, the filters and the sort.
* `AutoFilter.visibleRows`, `AutoFilter.hiddenRows`: The two kinds of rows.
* `AutoFilter.items`: The values of a column with their counts.
* `AutoFilter.ofJson?`, `AutoFilter.toJson`: An auto-filter and its tree.
-/

namespace Worksheet

/-- How a filter compares. -/
inductive FilterOperator where
  | all
  | eq
  | neq
  | gt
  | gte
  | lt
  | lte
  /-- Is the text one of the filter's values? -/
  | oneOf
  /-- Is the text between the first two values, ends included? -/
  | between
  deriving DecidableEq, Repr

/-- The words for the ways to compare. -/
def FilterOperator.words : List (String × FilterOperator) :=
  [("all", .all), ("eq", .eq), ("neq", .neq), ("gt", .gt), ("gte", .gte), ("lt", .lt),
    ("lte", .lte), ("in", .oneOf), ("be", .between)]

/-- The word for a way to compare. -/
def FilterOperator.word : FilterOperator → String
  | .all => "all"
  | .eq => "eq"
  | .neq => "neq"
  | .gt => "gt"
  | .gte => "gte"
  | .lt => "lt"
  | .lte => "lte"
  | .oneOf => "in"
  | .between => "be"

/-- A filter on one column. -/
structure Filter where
  col : Nat
  operator : FilterOperator
  values : List String := []
  deriving DecidableEq, Repr

/-- The order of two texts: of the numbers they spell if both spell one, and
    otherwise of their characters. -/
def compareTexts (a b : String) : Ordering :=
  match Number.ofText? a, Number.ofText? b with
  | some x, some y => if x < y then .lt else if y < x then .gt else .eq
  | _, _ => compare a b

namespace Filter

/-- Does a cell with this text pass the filter? Without a value to compare
    with, nothing passes. -/
def accepts (f : Filter) (s : String) : Bool :=
  let against (holds : Ordering → Bool) : Bool := match f.values with
    | v :: _ => holds (compareTexts s v)
    | [] => false
  match f.operator with
  | .all => true
  | .oneOf => f.values.contains s
  | .eq => against Ordering.isEq
  | .neq => against Ordering.isNe
  | .gt => against Ordering.isGT
  | .gte => against Ordering.isGE
  | .lt => against Ordering.isLT
  | .lte => against Ordering.isLE
  | .between => match f.values with
    | lo :: hi :: _ => (compareTexts s lo).isGE && (compareTexts s hi).isLE
    | _ => false

/-- The number of values that a filter on a list of values accepts. -/
def valueCount (f : Filter) : Nat :=
  match f.operator with
  | .oneOf => f.values.length
  | _ => 0

end Filter

/-- The direction of a sort. -/
inductive SortOrder where
  | ascending
  | descending
  deriving DecidableEq, Repr

/-- The words for the directions. -/
def SortOrder.words : List (String × SortOrder) :=
  [("asc", .ascending), ("desc", .descending)]

/-- The word for a direction. -/
def SortOrder.word : SortOrder → String
  | .ascending => "asc"
  | .descending => "desc"

/-- A sort, and the column it was asked for in. -/
structure ColumnSort where
  col : Nat
  order : SortOrder
  deriving DecidableEq, Repr

/-- The filters of a sheet. -/
structure AutoFilter where
  /-- The header and the rows under it; without a range the filter is off. -/
  range : Option Range := none
  filters : List Filter := []
  sort : Option ColumnSort := none
  deriving DecidableEq, Repr

namespace AutoFilter

/-- The filter that is off. -/
def off : AutoFilter := {}

/-- Is the filter on? -/
def active (a : AutoFilter) : Bool := a.range.isSome

/-- Change the first filter on a column in a list of filters. -/
def editFirst (col : Nat) (edit : Filter → Filter) : List Filter → List Filter
  | [] => []
  | f :: fs => if f.col = col then edit f :: fs else f :: editFirst col edit fs

/-- The filter on a column. -/
def filterOn? (a : AutoFilter) (col : Nat) : Option Filter :=
  a.filters.find? fun f => f.col == col

/-- Set the filter on a column, in the place of an old one. -/
def setFilter (a : AutoFilter) (col : Nat) (operator : FilterOperator) (values : List String) :
    AutoFilter :=
  match a.filterOn? col with
  | some _ => { a with filters := editFirst col (fun f => { f with operator, values }) a.filters }
  | none => { a with filters := a.filters ++ [⟨col, operator, values⟩] }

/-- Set or remove the sort. -/
def setSort (a : AutoFilter) (col : Nat) (order : Option SortOrder) : AutoFilter :=
  { a with sort := order.map fun o => ⟨col, o⟩ }

/-- The sort, if it was asked for in this column. -/
def sortOn? (a : AutoFilter) (col : Nat) : Option ColumnSort :=
  a.sort.filter fun s => s.col == col

/-- Replace the first value of a list that equals `old`. -/
def replaceFirst (old new : String) : List String → List String
  | [] => []
  | v :: vs => if v = old then new :: vs else v :: replaceFirst old new vs

/-- Let the filter on a column follow an edit: its first value equal to the old
    text becomes the new one. -/
def follow (a : AutoFilter) (col : Nat) (old new : String) : AutoFilter :=
  { a with filters :=
      editFirst col (fun f => { f with values := replaceFirst old new f.values }) a.filters }

/-- The header row. -/
def header? (a : AutoFilter) : Option Range :=
  a.range.map fun r =>
    { top := r.top, left := r.left, bottom := r.top, right := r.right
      left_le_right := r.left_le_right }

/-- Is it a cell of the header? -/
def isHeader (a : AutoFilter) (c : CellRef) : Bool :=
  a.header?.any fun r => r.mem c

/-- The rows from the one after the header to the end of the range: the rows under
    the header, or all of them if it is in the last row of the grid. -/
def dataRows (a : AutoFilter) : List Nat :=
  match a.range with
  | some r => List.range' (Address.next r.top) (r.bottom + 1 - Address.next r.top)
  | none => []

/-- Does a row pass every filter? -/
def accepts (a : AutoFilter) (text : CellRef → String) (row : Nat) : Bool :=
  a.filters.all fun f => f.accepts (text ⟨row, f.col⟩)

/-- The rows under the header that pass, in increasing order. -/
def visibleRows (a : AutoFilter) (text : CellRef → String) : List Nat :=
  a.dataRows.filter (a.accepts text)

/-- The rows under the header that fail, in increasing order. -/
def hiddenRows (a : AutoFilter) (text : CellRef → String) : List Nat :=
  a.dataRows.filter fun row => !a.accepts text row

/-- Count one more of a text, in a list ordered by text. -/
def countText (s : String) : List (String × Nat) → List (String × Nat)
  | [] => [(s, 1)]
  | (t, n) :: rest =>
    if s = t then (t, n + 1) :: rest
    else if s < t then (s, 1) :: (t, n) :: rest
    else (t, n) :: countText s rest

/-- The values of a column under the header with their counts, in order.
    Blank cells are counted together under the empty text. -/
def items (a : AutoFilter) (col : Nat) (text : CellRef → String) : List (String × Nat) :=
  a.dataRows.foldl (fun counts row =>
    let s := text ⟨row, col⟩
    countText (if Text.isAllBlank s then "" else s) counts) []

end AutoFilter

open Json

/-- Read a filter. -/
def Filter.ofJson? (form : Form) (j : Json) : Option Filter := do
  let fields ← record? form ["ci", "operator", "value"] j
  return { col := ← required? index? (find? "ci" fields)
           operator := ← required? (choice? form FilterOperator.words) (find? "operator" fields)
           values := ← withDefault? (list? text?) [] (find? "value" fields) }

/-- The tree of a filter. -/
def Filter.toJson (f : Filter) : Json :=
  .object [("ci", ofIndex f.col), ("operator", .string f.operator.word),
    ("value", .array (f.values.map .string))]

/-- Read a sort. -/
def ColumnSort.ofJson? (form : Form) (j : Json) : Option ColumnSort := do
  let fields ← record? form ["ci", "order"] j
  return { col := ← required? index? (find? "ci" fields)
           order := ← required? (choice? form SortOrder.words) (find? "order" fields) }

/-- The tree of a sort. -/
def ColumnSort.toJson (s : ColumnSort) : Json :=
  .object [("ci", ofIndex s.col), ("order", .string s.order.word)]

/-- Read an auto-filter. -/
def AutoFilter.ofJson? (form : Form) (j : Json) : Option AutoFilter := do
  let fields ← record? form ["ref", "filters", "sort"] j
  return { range := ← optional? range? (find? "ref" fields)
           filters := ← withDefault? (list? (Filter.ofJson? form)) [] (find? "filters" fields)
           sort := ← optional? (ColumnSort.ofJson? form) (find? "sort" fields) }

/-- The tree of an auto-filter. -/
def AutoFilter.toJson (a : AutoFilter) : Json :=
  .object (fieldIf "ref" (a.range.map ofRange) ++
    (if a.filters.isEmpty then [] else [("filters", .array (a.filters.map Filter.toJson))]) ++
    fieldIf "sort" (a.sort.map ColumnSort.toJson))

end Worksheet
