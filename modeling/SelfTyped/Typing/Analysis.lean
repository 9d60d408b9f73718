/-
SelfTyped.Typing.Analysis — the analysis of a whole program.

The hierarchy is built first; a violation ends the analysis.  Then the
methods are collected and the classes checked, in the order of
declaration; type errors do not stop the analysis.  `check` reports
what was found to a sink and tells whether the program is accepted.
-/
import SelfTyped.Hierarchy.Build
import SelfTyped.Typing.Checker
import SelfTyped.Report.Sink

namespace SelfTyped

/-- A class with the types found for its features. -/
structure TypedClass where
  decl : Class
  features : List TypedFeature

/-- What the analysis of a program found out. -/
structure Analysis where
  hierarchy : Hierarchy
  methods : MethodTable
  /-- The classes of the program in the order of declaration. -/
  classes : List TypedClass
  findings : List Finding

namespace TypedFeature

/-- The nodes of a feature in pre-order with their types. -/
def nodes (f : TypedFeature) : List (Expr × Option Name) :=
  f.node.flatten

/-- The type of the initializer or body of a feature, if it was reached. -/
def rootType? (f : TypedFeature) : Option Name :=
  f.nodes.head?.bind (·.2)

end TypedFeature

namespace Analysis

/-- The features of all classes. -/
def features (a : Analysis) : List TypedFeature :=
  a.classes.flatMap TypedClass.features

/-- The number of expressions that have a type. -/
def typeCount (a : Analysis) : Nat :=
  ((a.features.flatMap TypedFeature.nodes).filter fun (_, type) => type.isSome).length

end Analysis

namespace Program

/-- Checks a class of a program.  Gives the class with its types, and what was found. -/
def typeClass (h : Hierarchy) (methods : MethodTable) (maxDepth : Nat) (c : Class) :
    TypedClass × List Finding :=
  let outcome := Setting.typeClass ⟨h, methods, ClassSignature.ofClass c, maxDepth⟩ c.features
  (⟨c, outcome.features⟩, outcome.findings)

/-- Types a program over its hierarchy. -/
def typeIn (program : Program) (h : Hierarchy) (maxDepth : Nat) : Analysis :=
  let (methods, redeclarations) := MethodTable.build h
  let outcomes := program.classes.map (typeClass h methods maxDepth)
  { hierarchy := h
    methods
    classes := outcomes.map (·.1)
    findings := redeclarations ++ outcomes.flatMap (·.2) }

/-- Analyses a program.  Only a violation of the hierarchy makes this fail. -/
def analyse (program : Program) (maxDepth : Nat) : Except Violation Analysis := do
  let h ← Hierarchy.build program
  return program.typeIn h maxDepth

end Program

/-- The parts of the analysis that can fail. -/
inductive Stage where
  | hierarchy
  | typing
  deriving DecidableEq, Repr

/-- A rejected program: the stage that rejected it and the number of errors. -/
structure Halt where
  stage : Stage
  errors : Nat
  deriving DecidableEq, Repr

namespace Stage

/-- The wording of a stage. -/
def name : Stage → String
  | .hierarchy => "hierarchy validation"
  | .typing => "type checking"

end Stage

namespace Halt

/-- The wording of a halt. -/
def render (halt : Halt) : String :=
  halt.stage.name ++ " failed with " ++ toString halt.errors ++ " error(s)"

end Halt

namespace Program

/-- Analyses a program, reporting to a sink what is found.  Any reported error makes this
fail. -/
def check (program : Program) (maxDepth : Nat) (sink : Sink) : Sink × Except Halt Analysis :=
  match program.analyse maxDepth with
  | .error violation => (sink.emit violation.diagnostic, .error ⟨.hierarchy, 1⟩)
  | .ok analysis =>
    let sink := sink.emitAll (analysis.findings.map Finding.diagnostic)
    (sink, if sink.errored then .error ⟨.typing, sink.count .error⟩ else .ok analysis)

end Program

end SelfTyped
