/-
SelfTyped.Timing.Report — how long the phases of a run took.

A span is a finished phase with the clock readings at its start and its
stop.  The report lists phases by the time they started; the depth of a
phase is the number of earlier phases that were still running when it
started.  The running phases are kept while going through the list, and
a phase that has stopped is dropped for good.
-/
import SelfTyped.Json.Printer

namespace SelfTyped

namespace Timing

/-- A finished phase.  Times are in nanoseconds. -/
structure Span where
  label : String
  start : Nat
  stop : Nat
  deriving DecidableEq, Repr

/-- A line of the report. -/
structure Phase where
  label : String
  depth : Nat
  millis : Nat
  deriving DecidableEq, Repr

/-- The phases of a run in the order in which they started. -/
structure Report where
  phases : List Phase
  deriving DecidableEq, Repr

/-- The number of nanoseconds in a millisecond. -/
def nanosPerMilli : Nat := 1000000

/-- The lines for spans in order of their starts, given the earlier spans that may still run. -/
def phasesFrom : List Span → List Span → List Phase
  | _, [] => []
  | running, span :: rest =>
    let running := running.filter fun outer => decide (span.start < outer.stop)
    ⟨span.label, running.length, (span.stop - span.start) / nanosPerMilli⟩ ::
      phasesFrom (running ++ [span]) rest

namespace Report

/-- The report on a collection of spans.  Spans that started together keep their order. -/
def ofSpans (spans : List Span) : Report :=
  ⟨phasesFrom [] (spans.mergeSort fun a b => decide (a.start ≤ b.start))⟩

end Report

namespace Phase

/-- The width of the labels, indentation included. -/
def labelWidth : Nat := 40

/-- The width to which a time is padded. -/
def millisWidth : Nat := 6

/-- A number of blanks. -/
def blanks (count : Nat) : String :=
  String.ofList (List.replicate count ' ')

/-- A line of the report: two blanks per level, the label padded so that times are aligned as
long as labels fit, and the time padded on its left. -/
def render (p : Phase) : String :=
  let indent := 2 * p.depth
  let millis := toString p.millis
  blanks indent ++ p.label ++ blanks (labelWidth - indent - p.label.length) ++ " " ++
    blanks (millisWidth - millis.length) ++ millis ++ "ms\n"

/-- A line of the report as a JSON value. -/
def toJson (p : Phase) : Json :=
  .object [("label", .string p.label), ("depth", .number (.integer p.depth)),
    ("millis", .number (.integer p.millis))]

end Phase

namespace Report

/-- The report as a table. -/
def render (r : Report) : String :=
  String.join (r.phases.map Phase.render)

/-- The report as a JSON value. -/
def toJson (r : Report) : Json :=
  .object [("phases", .array (r.phases.map Phase.toJson))]

end Report

end Timing

end SelfTyped
