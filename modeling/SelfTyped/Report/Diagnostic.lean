/-
SelfTyped.Report.Diagnostic — messages about a program.

A diagnostic has a level, a text and, if it concerns a place, the file
and line of that place.  It is written with the place in bold, the level
in bold and in the colour of the level, and the text itself plain.
-/
import SelfTyped.Report.Style

namespace SelfTyped

/-- How serious a diagnostic is. -/
inductive Level where
  | error
  | warning
  deriving DecidableEq, Repr

/-- A line of a file. -/
structure Location where
  file : String
  line : Nat
  deriving DecidableEq, Repr

/-- A message about a program. -/
structure Diagnostic where
  level : Level
  location : Option Location
  message : String
  deriving DecidableEq, Repr

namespace Level

/-- The word for a level. -/
def name : Level → String
  | .error => "error"
  | .warning => "warning"

/-- The colour of a level. -/
def colour : Level → Colour
  | .error => .red
  | .warning => .yellow

end Level

namespace Location

/-- File and line, with a colon between. -/
def render (l : Location) : String :=
  l.file ++ ":" ++ toString l.line

end Location

namespace Diagnostic

/-- The text of a diagnostic without its line end. -/
def render (d : Diagnostic) : String :=
  ((d.location.map fun l => l.render ++ ": ").getD "") ++ d.level.name ++ ": " ++ d.message

/-- The pieces written for the location. -/
def locationPieces : Option Location → List Piece
  | none => []
  | some l => [.style ⟨true, none⟩, .text (l.render ++ ": ")]

/-- A diagnostic as styled output, with its line end.  Every change of weight or colour is
written at once, also where a second change follows. -/
def pieces (d : Diagnostic) : List Piece :=
  let colour := some d.level.colour
  [.reset] ++ locationPieces d.location ++
    [.style ⟨d.location.isSome, colour⟩, .style ⟨true, colour⟩, .text (d.level.name ++ ": "),
      .style ⟨true, none⟩, .style ⟨false, none⟩, .text (d.message ++ "\n"), .reset]

end Diagnostic

end SelfTyped
