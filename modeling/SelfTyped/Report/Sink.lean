/-
SelfTyped.Report.Sink — where diagnostics are reported to.

A sink keeps every diagnostic in the order of reporting, counts them by
level, and writes each as it comes.  The closing statistics depend on
the counts only.
-/
import SelfTyped.Report.Diagnostic

namespace SelfTyped

/-- The diagnostics reported so far, their numbers by level, and the output written so far. -/
structure Sink where
  messages : List Diagnostic
  errors : Nat
  warnings : Nat
  written : List Piece
  deriving Repr

namespace Sink

/-- Nothing reported and nothing written. -/
def empty : Sink :=
  ⟨[], 0, 0, []⟩

/-- The number of diagnostics of a level. -/
def count (s : Sink) : Level → Nat
  | .error => s.errors
  | .warning => s.warnings

/-- Whether an error was reported. -/
def errored (s : Sink) : Bool :=
  s.count .error > 0

/-- Counts one more diagnostic of a level. -/
def increment (s : Sink) : Level → Sink
  | .error => { s with errors := s.errors + 1 }
  | .warning => { s with warnings := s.warnings + 1 }

/-- Reports a diagnostic. -/
def emit (s : Sink) (d : Diagnostic) : Sink :=
  { s with messages := s.messages ++ [d], written := s.written ++ d.pieces }.increment d.level

/-- Reports diagnostics in order. -/
def emitAll (s : Sink) (ds : List Diagnostic) : Sink :=
  ds.foldl emit s

/-- The closing line: the number of errors, or else the number of warnings. -/
def statisticsLine (s : Sink) : String :=
  if s.errored then
    "Compilation halted due to " ++
      (match s.errors with
      | 1 => "a static semantic error"
      | n => toString n ++ " static semantic errors")
  else
    "Semantic analysis finished successfully " ++
      (match s.warnings with
      | 0 => "without warnings"
      | 1 => "with a warning"
      | n => "with " ++ toString n ++ " warnings")

/-- The closing line as styled output: red after errors, else green. -/
def statisticsPieces (s : Sink) : List Piece :=
  let colour := if s.errored then Colour.red else Colour.green
  [.reset, .style ⟨true, none⟩, .style ⟨true, some colour⟩, .text (s.statisticsLine ++ "\n"),
    .reset]

/-- Writes the closing line. -/
def writeStatistics (s : Sink) : Sink :=
  { s with written := s.written ++ s.statisticsPieces }

end Sink

end SelfTyped
