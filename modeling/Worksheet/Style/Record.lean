import Worksheet.Json.Record
import Worksheet.Style.Basic

/-!
# Styles in Documents

Reading and writing styles.

A style is written with the fields that are set, in a fixed order, and a
border edge as its line and its color in an array. Each choice is written as
a word: `words` lists what a choice is read from, and `word` gives what it is
written as.

## Main definitions

* `Style.ofJson?`, `Style.toJson`: A style and its tree.
* `Border.ofJson?`, `Border.toJson`: A border and its tree.
* `Format.words`, `Format.word`, and the same for the other choices: The words.
-/

namespace Worksheet

open Json

/-- The words for horizontal alignment. -/
def Align.words : List (String × Align) :=
  [("left", .left), ("center", .center), ("right", .right)]

/-- The word for a horizontal alignment. -/
def Align.word : Align → String
  | .left => "left"
  | .center => "center"
  | .right => "right"

/-- The words for vertical alignment. -/
def VerticalAlign.words : List (String × VerticalAlign) :=
  [("top", .top), ("middle", .middle), ("bottom", .bottom)]

/-- The word for a vertical alignment. -/
def VerticalAlign.word : VerticalAlign → String
  | .top => "top"
  | .middle => "middle"
  | .bottom => "bottom"

/-- The words for formats. -/
def Format.words : List (String × Format) :=
  [("normal", .normal), ("text", .text), ("number", .number), ("percent", .percent),
    ("rmb", .rmb), ("usd", .usd), ("eur", .eur), ("date", .date), ("time", .time),
    ("datetime", .datetime), ("duration", .duration)]

/-- The word for a format. -/
def Format.word : Format → String
  | .normal => "normal"
  | .text => "text"
  | .number => "number"
  | .percent => "percent"
  | .rmb => "rmb"
  | .usd => "usd"
  | .eur => "eur"
  | .date => "date"
  | .time => "time"
  | .datetime => "datetime"
  | .duration => "duration"

/-- The words for lines. -/
def LineStyle.words : List (String × LineStyle) :=
  [("thin", .thin), ("medium", .medium), ("thick", .thick), ("dashed", .dashed),
    ("dotted", .dotted), ("double", .double)]

/-- The word for a line. -/
def LineStyle.word : LineStyle → String
  | .thin => "thin"
  | .medium => "medium"
  | .thick => "thick"
  | .dashed => "dashed"
  | .dotted => "dotted"
  | .double => "double"

/-- The words for the edges that a border edit draws. -/
def BorderMode.words : List (String × BorderMode) :=
  [("all", .all), ("inside", .inside), ("outside", .outside), ("horizontal", .horizontal),
    ("vertical", .vertical), ("top", .top), ("bottom", .bottom), ("left", .left),
    ("right", .right), ("none", .none)]

/-- Read an edge from its line and its color. -/
def BorderEdge.ofJson? (form : Form) : Json → Option BorderEdge
  | .array (line :: color :: rest) =>
    if rest.isEmpty || form.longArrays then
      match choice? form LineStyle.words line, text? color with
      | some line, some color => some ⟨line, color⟩
      | _, _ => none
    else none
  | _ => none

/-- The tree of an edge. -/
def BorderEdge.toJson (e : BorderEdge) : Json :=
  .array [.string e.line.word, .string e.color]

/-- Read a border. -/
def Border.ofJson? (form : Form) (j : Json) : Option Border := do
  let fields ← record? form ["top", "bottom", "left", "right"] j
  let edge (name : String) := optional? (BorderEdge.ofJson? form) (find? name fields)
  return { top := ← edge "top", bottom := ← edge "bottom"
           left := ← edge "left", right := ← edge "right" }

/-- The tree of a border. -/
def Border.toJson (b : Border) : Json :=
  .object (fieldIf "top" (b.top.map BorderEdge.toJson) ++
    fieldIf "bottom" (b.bottom.map BorderEdge.toJson) ++
    fieldIf "left" (b.left.map BorderEdge.toJson) ++
    fieldIf "right" (b.right.map BorderEdge.toJson))

/-- Read a font. -/
def Font.ofJson? (form : Form) (j : Json) : Option Font := do
  let fields ← record? form ["name", "size", "bold", "italic"] j
  return { name := ← optional? text? (find? "name" fields)
           size := ← optional? short? (find? "size" fields)
           bold := ← optional? bool? (find? "bold" fields)
           italic := ← optional? bool? (find? "italic" fields) }

/-- The tree of a font. -/
def Font.toJson (f : Font) : Json :=
  .object (fieldIf "name" (f.name.map .string) ++
    fieldIf "size" (f.size.map ofIndex) ++
    fieldIf "bold" (f.bold.map .bool) ++
    fieldIf "italic" (f.italic.map .bool))

/-- The names of the fields of a style, in the order they are written. -/
def Style.fieldNames : List String :=
  ["bgcolor", "align", "valign", "textwrap", "strike", "underline", "color", "font", "format",
    "border"]

/-- Read a style. -/
def Style.ofJson? (form : Form) (j : Json) : Option Style := do
  let fields ← record? form Style.fieldNames j
  return { background := ← optional? text? (find? "bgcolor" fields)
           align := ← optional? (choice? form Align.words) (find? "align" fields)
           verticalAlign := ← optional? (choice? form VerticalAlign.words) (find? "valign" fields)
           wrap := ← optional? bool? (find? "textwrap" fields)
           strike := ← optional? bool? (find? "strike" fields)
           underline := ← optional? bool? (find? "underline" fields)
           color := ← optional? text? (find? "color" fields)
           font := ← optional? (Font.ofJson? form) (find? "font" fields)
           format := ← optional? (choice? form Format.words) (find? "format" fields)
           border := ← optional? (Border.ofJson? form) (find? "border" fields) }

/-- The tree of a style. -/
def Style.toJson (s : Style) : Json :=
  .object (fieldIf "bgcolor" (s.background.map .string) ++
    fieldIf "align" (s.align.map fun a => .string a.word) ++
    fieldIf "valign" (s.verticalAlign.map fun a => .string a.word) ++
    fieldIf "textwrap" (s.wrap.map .bool) ++
    fieldIf "strike" (s.strike.map .bool) ++
    fieldIf "underline" (s.underline.map .bool) ++
    fieldIf "color" (s.color.map .string) ++
    fieldIf "font" (s.font.map Font.toJson) ++
    fieldIf "format" (s.format.map fun f => .string f.word) ++
    fieldIf "border" (s.border.map Border.toJson))

end Worksheet
