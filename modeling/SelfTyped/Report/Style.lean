/-
SelfTyped.Report.Style — styled output.

Output is a sequence of pieces: text, a change of style, or a return to
the terminal's own style.  On a plain device the text alone is written.
On a colour terminal a style is written by its control sequence, which
first resets, then sets weight and colour, so that every style stands
by itself and does not hang on the one before.
-/

namespace SelfTyped

/-- The colours in which output may appear. -/
inductive Colour where
  | red
  | green
  | yellow
  deriving DecidableEq, Repr

/-- A text style.  Without a colour the terminal's own is used. -/
structure Style where
  bold : Bool := false
  colour : Option Colour := none
  deriving DecidableEq, Repr

/-- One piece of styled output. -/
inductive Piece where
  | text (content : String)
  | style (style : Style)
  | reset
  deriving DecidableEq, Repr

/-- Whether output goes to a colour terminal or to a plain device. -/
inductive Device where
  | plain
  | terminal
  deriving DecidableEq, Repr

namespace Colour

/-- The control sequence of a colour. -/
def sequence : Colour → String
  | .red => "\x1b[31m"
  | .green => "\x1b[32m"
  | .yellow => "\x1b[33m"

end Colour

namespace Style

/-- The control sequence that returns to the terminal's own style. -/
def resetSequence : String := "\x1b[0m"

/-- The control sequence of a style. -/
def sequence (s : Style) : String :=
  resetSequence ++ (if s.bold then "\x1b[1m" else "") ++
    ((s.colour.map Colour.sequence).getD "")

end Style

namespace Piece

/-- What a piece writes on a device. -/
def render : Device → Piece → String
  | _, .text content => content
  | .plain, _ => ""
  | .terminal, .style s => s.sequence
  | .terminal, .reset => Style.resetSequence

/-- What a sequence of pieces writes on a device. -/
def renderAll (device : Device) (pieces : List Piece) : String :=
  String.join (pieces.map (render device))

end Piece

end SelfTyped
