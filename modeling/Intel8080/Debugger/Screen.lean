import Intel8080.Text.Lines

/-!
# Screens

A screen is rows of cells. A pane is a framed part of it: a title in the upper border, and lines
of styled text inside, cut off at the frame. Styles lie over each other: the style of a pane under
that of its border or of a line, and these under the style of a piece of text. A style above takes
the color of the one below unless it has its own.

Embedded here is what the panes use of the terminal library: frames, paragraphs and lists, by their
documented rules and without wrapping.
-/
namespace Intel8080

inductive Color where
  | red | green | yellow | blue | magenta | cyan | white | darkGray
  deriving DecidableEq, Repr

def Color.name : Color → String
  | .red => "Red" | .green => "Green" | .yellow => "Yellow" | .blue => "Blue"
  | .magenta => "Magenta" | .cyan => "Cyan" | .white => "White" | .darkGray => "DarkGray"

structure Style where
  color : Option Color
  bold : Bool
  deriving DecidableEq, Repr

namespace Style

def plain : Style := ⟨none, false⟩

instance : Inhabited Style := ⟨plain⟩

def colored (c : Color) : Style := ⟨some c, false⟩

def bright (c : Color) : Style := ⟨some c, true⟩

/-- A style with another above it. -/
def onto (above below : Style) : Style := ⟨above.color <|> below.color, above.bold || below.bold⟩

end Style

/-- What one column of a row shows. -/
structure Cell where
  symbol : String
  style : Style
  deriving DecidableEq, Repr

instance : Inhabited Cell := ⟨⟨" ", .plain⟩⟩

structure Span where
  text : String
  style : Style
  deriving DecidableEq, Repr

structure StyledLine where
  spans : List Span
  style : Style
  deriving DecidableEq, Repr

/-- The cells for some characters in a style, after those already there, which stand in reverse.
A wide character leaves a blank behind it, a mark joins the cell before it, and controls are left
out. -/
def cellsFrom (style : Style) (cells : List Cell) : List Char → List Cell
  | [] => cells.reverse
  | c :: rest =>
    if isControl c then cellsFrom style cells rest
    else if isMark c then
      match cells with
      | last :: before =>
        cellsFrom style ({ last with symbol := last.symbol.push c } :: before) rest
      | [] => cellsFrom style [] rest
    else if isWide c then cellsFrom style (⟨" ", .plain⟩ :: ⟨c.toString, style⟩ :: cells) rest
    else cellsFrom style (⟨c.toString, style⟩ :: cells) rest

def Span.cells (s : Span) : List Cell := cellsFrom s.style [] s.text.toList

/-- The cells of a line, without any style below it. -/
def StyledLine.cells (l : StyledLine) : List Cell := l.spans.flatMap Span.cells

structure Pane where
  title : String
  border : Style
  /-- The style under everything in the pane. -/
  base : Style
  lines : List StyledLine

namespace Pane

/-- Cells cut or filled with blanks to a width, over a style. -/
def fit (width : Nat) (below : Style) (cells : List Cell) : List Cell :=
  let shown := (cells.take width).map fun c => { c with style := c.style.onto below }
  shown ++ List.replicate (width - shown.length) ⟨" ", below⟩

/-- The cells of a row of the border, with its corners and what runs between them. -/
def borderRow (p : Pane) (width : Nat) (left right : Char) (title : String) : List Cell :=
  let style := p.border.onto p.base
  let middle := (title.toList ++ List.replicate (width - 2) '─').take (width - 2)
  (left :: middle ++ [right]).map fun c => ⟨c.toString, style⟩

/-- The cells of a row inside the frame. -/
def innerRow (p : Pane) (width : Nat) (line : StyledLine) : List Cell :=
  let side : Cell := ⟨"│", p.border.onto p.base⟩
  side :: fit (width - 2) (line.style.onto p.base) line.cells ++ [side]

/-- The lines cut or filled with empty lines to a height. -/
def fitLines (p : Pane) (height : Nat) : List StyledLine :=
  let shown := p.lines.take height
  shown ++ List.replicate (height - shown.length) ⟨[], .plain⟩

def rows (p : Pane) (width height : Nat) : List (List Cell) :=
  p.borderRow width '┌' '┐' p.title ::
    (p.fitLines (height - 2)).map (p.innerRow width) ++ [p.borderRow width '└' '┘' ""]

end Pane

end Intel8080
