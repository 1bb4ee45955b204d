import CodeEditor.Text.Grapheme
import CodeEditor.Text.Width
/-!
Cells of a terminal row, and how text is laid out in them.

Text is drawn glyph by glyph: the characters of the edited text one by one, other text by grapheme clusters. A glyph
takes as many cells as it is wide, and those behind the first show nothing of their own. A row is filled from the left:
a glyph that does not fit any more ends it, and what is left stays blank.
-/

namespace CodeEditor

/-- the colours in use; `reset` is the terminal's own -/
inductive Color where
  | reset
  | darkGray
  | green
  | yellow
  | white
  | blue
  deriving DecidableEq, Repr

/-- how a cell looks -/
structure Style where
  foreground : Color
  background : Color
  bold : Bool
  italic : Bool
  reversed : Bool
  deriving DecidableEq, Repr

/-- the terminal's own look -/
def Style.plain : Style :=
  ⟨.reset, .reset, false, false, false⟩

/-- one cell; the second cell of a wide glyph has an empty symbol -/
structure Cell where
  symbol : Text
  style : Style
  deriving DecidableEq, Repr

/-- a row of cells -/
abbrev Row := List Cell

namespace Row

/-- cells that show a space -/
def blank (width : Nat) (style : Style) : Row :=
  List.replicate width ⟨[' '], style⟩

/-- what a row shows, from left to right -/
def text (row : Row) : Text :=
  row.flatMap Cell.symbol

end Row

/-- something to draw: a symbol, the cells it takes, and its look -/
structure Glyph where
  symbol : Text
  width : Nat
  style : Style
  deriving DecidableEq, Repr

namespace Glyph

/-- the glyph of one character -/
def ofChar (style : Style) (c : Char) : Glyph :=
  ⟨[c], cellWidth c, style⟩

/-- glyphs of a text; clusters with a control are left out -/
def ofText (style : Style) (t : Text) : List Glyph :=
  ((clusters t).filter (!·.any isControl)).map fun cluster => ⟨cluster, textWidth cluster, style⟩

/-- glyphs from `g` on, where those without cells share the cell of the glyph before them. Behind a glyph of several
cells they are lost, and at the start they share the cell of the glyph behind them -/
def absorbInto (g : Glyph) : List Glyph → List Glyph
  | [] => [g]
  | h :: hs =>
    if h.width = 0 then absorbInto (if g.width ≤ 1 then { g with symbol := g.symbol ++ h.symbol } else g) hs
    else if g.width = 0 then absorbInto { h with symbol := g.symbol ++ h.symbol } hs
    else g :: absorbInto h hs

/-- the glyphs with those without cells in the cells of others -/
def absorb : List Glyph → List Glyph
  | [] => []
  | g :: gs => absorbInto g gs

/-- the cells of a glyph; those behind the first have the look of the row -/
def cells (base : Style) (g : Glyph) : Row :=
  match g.width with
  | 0 => []
  | n + 1 => ⟨g.symbol, g.style⟩ :: List.replicate n ⟨[], base⟩

/-- lay glyphs out in `room` cells, as far as they fit -/
def layOut (base : Style) (room : Nat) : List Glyph → Row
  | [] => []
  | g :: gs => if room < g.width then [] else g.cells base ++ layOut base (room - g.width) gs

/-- a row of `width` cells with glyphs from its left end on; a glyph that is wider than the whole row is left out -/
def row (base : Style) (width : Nat) (gs : List Glyph) : Row :=
  let drawn := layOut base width (gs.filter (·.width ≤ width))
  drawn ++ Row.blank (width - drawn.length) base

end Glyph

end CodeEditor
