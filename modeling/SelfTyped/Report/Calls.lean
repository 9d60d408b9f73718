/-
SelfTyped.Report.Calls — the calls of a sink, and how output appears.

Output is drawn with a pen.  A pen is taken up for one call: it resets the
writer, keeps a weight and a colour that are changed one at a time, each
change setting both, and resets the writer again when it is put down.

How output appears is told by its spans: each text with the style that
the writer is in when the text is written.
-/
import SelfTyped.Report.Sink

namespace SelfTyped

/-! ## Spans -/

/-- A text, and the style it is written in. -/
structure Span where
  text : String
  style : Style
  deriving DecidableEq, Repr

namespace Piece

/-- The style of the writer after a piece. -/
def restyle (style : Style) : Piece → Style
  | .text _ => style
  | .style new => new
  | .reset => {}

/-- The style of the writer after a sequence of pieces. -/
def settle (style : Style) (pieces : List Piece) : Style :=
  pieces.foldl restyle style

/-- The texts of a sequence of pieces, as they appear on a writer of the style. -/
def spans (style : Style) : List Piece → List Span
  | [] => []
  | .text content :: rest => ⟨content, style⟩ :: spans style rest
  | piece :: rest => spans (piece.restyle style) rest

end Piece

/-! ## Pens -/

/-- What is done with a pen. -/
inductive Stroke where
  | weight (bold : Bool)
  | colour (colour : Option Colour)
  | text (content : String)
  deriving DecidableEq, Repr

namespace Stroke

/-- The style of the pen after a stroke. -/
def restyle (style : Style) : Stroke → Style
  | .weight bold => { style with bold := bold }
  | .colour new => { style with colour := new }
  | .text _ => style

/-- What a pen of the style writes. -/
def pieces (style : Style) : List Stroke → List Piece
  | [] => []
  | .text content :: rest => .text content :: pieces style rest
  | stroke :: rest => .style (stroke.restyle style) :: pieces (stroke.restyle style) rest

/-- The texts of strokes, each in the style of the pen. -/
def spans (style : Style) : List Stroke → List Span
  | [] => []
  | .text content :: rest => ⟨content, style⟩ :: spans style rest
  | stroke :: rest => spans (stroke.restyle style) rest

/-- What is written from taking up a new pen to putting it down. -/
def draw (strokes : List Stroke) : List Piece :=
  [.reset] ++ pieces {} strokes ++ [.reset]

end Stroke

namespace Diagnostic

/-- The strokes of a diagnostic. -/
def strokes (d : Diagnostic) : List Stroke :=
  (match d.location with
    | none => []
    | some l => [.weight true, .text (l.render ++ ": ")]) ++
  [.colour (some d.level.colour), .weight true, .text (d.level.name ++ ": "),
    .colour none, .weight false, .text (d.message ++ "\n")]

/-- How a diagnostic appears: location and level are bold, the level is in its colour, and the
text is plain. -/
def spans (d : Diagnostic) : List Span :=
  (match d.location with
    | none => []
    | some l => [⟨l.render ++ ": ", ⟨true, none⟩⟩]) ++
  [⟨d.level.name ++ ": ", ⟨true, some d.level.colour⟩⟩, ⟨d.message ++ "\n", ⟨false, none⟩⟩]

end Diagnostic

/-! ## Calls -/

namespace Sink

/-- Reports an error without a location. -/
def error (s : Sink) (message : String) : Sink :=
  s.emit ⟨.error, none, message⟩

/-- Reports a warning without a location. -/
def warning (s : Sink) (message : String) : Sink :=
  s.emit ⟨.warning, none, message⟩

/-- Reports an error at a location. -/
def errorAt (s : Sink) (location : Location) (message : String) : Sink :=
  s.emit ⟨.error, some location, message⟩

/-- Reports a warning at a location. -/
def warningAt (s : Sink) (location : Location) (message : String) : Sink :=
  s.emit ⟨.warning, some location, message⟩

/-- The closing line for numbers of errors and warnings. -/
def statistics (errors warnings : Nat) : String :=
  statisticsLine ⟨[], errors, warnings, []⟩

end Sink

/-- A call of a sink. -/
inductive SinkCall where
  | emit (level : Level) (location : Option Location) (message : String)
  | error (message : String)
  | warning (message : String)
  | errorAt (location : Location) (message : String)
  | warningAt (location : Location) (message : String)
  | writeStatistics
  deriving DecidableEq, Repr

namespace SinkCall

/-- The diagnostic that a call reports. -/
def record? : SinkCall → Option Diagnostic
  | emit level location message => some ⟨level, location, message⟩
  | error message => some ⟨.error, none, message⟩
  | warning message => some ⟨.warning, none, message⟩
  | errorAt location message => some ⟨.error, some location, message⟩
  | warningAt location message => some ⟨.warning, some location, message⟩
  | writeStatistics => none

/-- The diagnostics that a sequence of calls reports, in order. -/
def records (calls : List SinkCall) : List Diagnostic :=
  calls.filterMap record?

/-- The number of diagnostics of a level that a sequence of calls reports. -/
def tally (level : Level) (calls : List SinkCall) : Nat :=
  (records calls).countP (·.level = level)

/-- The line that a call writes when numbers of errors and warnings were reported before. -/
def line (errors warnings : Nat) (call : SinkCall) : String :=
  match call.record? with
  | some d => d.render ++ "\n"
  | none => Sink.statistics errors warnings ++ "\n"

/-- The lines of a sequence of calls that goes on after others. -/
def lines (before : List SinkCall) : List SinkCall → List String
  | [] => []
  | call :: rest =>
    call.line (tally .error before) (tally .warning before) :: lines (before ++ [call]) rest

/-- The strokes of a call when numbers of errors and warnings were reported before. -/
def strokes (errors warnings : Nat) (call : SinkCall) : List Stroke :=
  match call.record? with
  | some d => d.strokes
  | none =>
    [.weight true, .colour (some (if errors > 0 then .red else .green)),
      .text (Sink.statistics errors warnings ++ "\n")]

/-- How the line of a call appears. -/
def spans (errors warnings : Nat) (call : SinkCall) : List Span :=
  match call.record? with
  | some d => d.spans
  | none =>
    [⟨Sink.statistics errors warnings ++ "\n", true, some (if errors > 0 then .red else .green)⟩]

end SinkCall

namespace Sink

/-- What a call does. -/
def perform (s : Sink) : SinkCall → Sink
  | .emit level location message => s.emit ⟨level, location, message⟩
  | .error message => s.error message
  | .warning message => s.warning message
  | .errorAt location message => s.errorAt location message
  | .warningAt location message => s.warningAt location message
  | .writeStatistics => s.writeStatistics

/-- A new sink after a sequence of calls. -/
def run (calls : List SinkCall) : Sink :=
  calls.foldl perform empty

end Sink

end SelfTyped
