import Worksheet.Style.Format

/-!
# Cell Styles

What a cell looks like.

A style records overrides only. Every property may be unset, and an unset
property is taken from the style below it, in the end from the sheet's
default. A font is resolved property by property in the same way, while a
border is taken as a whole: a cell with its own border shows none of the
edges of the style below.

An edit sets one property. Border edits overlay edges instead, so that the
edges of one cell can be drawn one after the other.

## Main definitions

* `Style`, `Font`, `Border`, `BorderEdge`: The properties.
* `Style.onto`: Unset properties taken from another style.
* `StyleEdit`, `StyleEdit.apply`: Setting one property.
* `Border.overlay`: Edges drawn over edges.
* `BorderMode`: Which edges of a selection to draw.
-/

namespace Worksheet

/-- Horizontal alignment. -/
inductive Align where
  | left
  | center
  | right
  deriving DecidableEq, Repr, Inhabited

/-- Vertical alignment. -/
inductive VerticalAlign where
  | top
  | middle
  | bottom
  deriving DecidableEq, Repr, Inhabited

/-- How a border line is drawn. -/
inductive LineStyle where
  | thin
  | medium
  | thick
  | dashed
  | dotted
  | double
  deriving DecidableEq, Repr, Inhabited

/-- One edge of a border. -/
structure BorderEdge where
  line : LineStyle
  color : String
  deriving DecidableEq, Repr

/-- The four edges of a cell, each drawn or not. -/
structure Border where
  top : Option BorderEdge := none
  bottom : Option BorderEdge := none
  left : Option BorderEdge := none
  right : Option BorderEdge := none
  deriving DecidableEq, Repr

/-- The properties of a font that are set. -/
structure Font where
  name : Option String := none
  size : Option Nat := none
  bold : Option Bool := none
  italic : Option Bool := none
  deriving DecidableEq, Repr

/-- The properties of a cell that are set. -/
structure Style where
  background : Option String := none
  align : Option Align := none
  verticalAlign : Option VerticalAlign := none
  wrap : Option Bool := none
  strike : Option Bool := none
  underline : Option Bool := none
  color : Option String := none
  font : Option Font := none
  format : Option Format := none
  border : Option Border := none
  deriving DecidableEq, Repr

namespace Border

/-- A border without edges. -/
def empty : Border := {}

/-- The edges of `above` drawn over those of `b`. -/
def overlay (b above : Border) : Border :=
  { top := above.top.or b.top
    bottom := above.bottom.or b.bottom
    left := above.left.or b.left
    right := above.right.or b.right }

/-- Has the border no edge at all? -/
def isEmpty (b : Border) : Bool :=
  b.top.isNone && b.bottom.isNone && b.left.isNone && b.right.isNone

end Border

namespace Font

/-- The font with unset properties taken from `base`. -/
def onto (f base : Font) : Font :=
  { name := f.name.or base.name
    size := f.size.or base.size
    bold := f.bold.or base.bold
    italic := f.italic.or base.italic }

end Font

namespace Style

/-- The style that sets nothing. -/
def empty : Style := {}

/-- The style with unset properties taken from `base`. -/
def onto (s base : Style) : Style :=
  { background := s.background.or base.background
    align := s.align.or base.align
    verticalAlign := s.verticalAlign.or base.verticalAlign
    wrap := s.wrap.or base.wrap
    strike := s.strike.or base.strike
    underline := s.underline.or base.underline
    color := s.color.or base.color
    font := match s.font, base.font with
      | some own, some fallback => some (own.onto fallback)
      | own, fallback => own.or fallback
    format := s.format.or base.format
    border := s.border.or base.border }

/-- Change the font, starting from one that sets nothing if there is none. -/
def editFont (s : Style) (edit : Font → Font) : Style :=
  { s with font := some (edit (s.font.getD {})) }

/-- Draw edges over the border, starting from none if there is no border. -/
def drawBorder (s : Style) (edges : Border) : Style :=
  { s with border := some ((s.border.getD Border.empty).overlay edges) }

end Style

/-- Setting one property of a style. -/
inductive StyleEdit where
  | bold (b : Bool)
  | italic (b : Bool)
  | fontName (s : String)
  | fontSize (n : Nat)
  | color (s : String)
  | background (s : String)
  | align (a : Align)
  | verticalAlign (a : VerticalAlign)
  | wrap (b : Bool)
  | strike (b : Bool)
  | underline (b : Bool)
  | format (f : Format)
  deriving DecidableEq, Repr

/-- The style with one property set. -/
def StyleEdit.apply : StyleEdit → Style → Style
  | .bold b, s => s.editFont fun f => { f with bold := some b }
  | .italic b, s => s.editFont fun f => { f with italic := some b }
  | .fontName n, s => s.editFont fun f => { f with name := some n }
  | .fontSize n, s => s.editFont fun f => { f with size := some n }
  | .color c, s => { s with color := some c }
  | .background c, s => { s with background := some c }
  | .align a, s => { s with align := some a }
  | .verticalAlign a, s => { s with verticalAlign := some a }
  | .wrap b, s => { s with wrap := some b }
  | .strike b, s => { s with strike := some b }
  | .underline b, s => { s with underline := some b }
  | .format f, s => { s with format := some f }

/-- Which edges of a selection a border edit draws. -/
inductive BorderMode where
  | all
  | inside
  | outside
  | horizontal
  | vertical
  | top
  | bottom
  | left
  | right
  | none
  deriving DecidableEq, Repr

end Worksheet
