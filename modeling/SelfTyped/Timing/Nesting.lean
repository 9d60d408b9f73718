/-
SelfTyped.Timing.Nesting — phases that run inside other phases.

A phase is opened, the phases inside it run one after the other, and it
is closed.  Opening and closing each read the clock once.  A span is
recorded when its phase is closed, so inner spans are recorded before
outer ones.
-/
import SelfTyped.Timing.Report

namespace SelfTyped

namespace Timing

/-- A phase with the phases that run inside it. -/
inductive Nested where
  | phase (label : String) (inside : List Nested)

/-- A clock: the time shown by each reading, the first one first. -/
abbrev Clock := Nat → Nat

mutual

/-- Runs a phase from clock reading `tick` on: the spans recorded, and the next reading. -/
def Nested.run (clock : Clock) (tick : Nat) : Nested → List Span × Nat
  | .phase label inside =>
    let (spans, next) := runAll clock (tick + 1) inside
    (spans ++ [⟨label, clock tick, clock next⟩], next + 1)

/-- Runs phases one after the other. -/
def runAll (clock : Clock) (tick : Nat) : List Nested → List Span × Nat
  | [] => ([], tick)
  | phase :: rest =>
    let (first, next) := phase.run clock tick
    let (others, last) := runAll clock next rest
    (first ++ others, last)

end

mutual

/-- The labels of a phase and those inside it with their depths, in the order of opening. -/
def Nested.outline (depth : Nat) : Nested → List (String × Nat)
  | .phase label inside => (label, depth) :: outlineAll (depth + 1) inside

/-- The outline of phases that run one after the other. -/
def outlineAll (depth : Nat) : List Nested → List (String × Nat)
  | [] => []
  | phase :: rest => phase.outline depth ++ outlineAll depth rest

end

/-- The report on phases that ran on a clock. -/
def reportOn (clock : Clock) (phases : List Nested) : Report :=
  Report.ofSpans (runAll clock 0 phases).1

end Timing

end SelfTyped
