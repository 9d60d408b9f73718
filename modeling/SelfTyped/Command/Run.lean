/-
SelfTyped.Command.Run — a run of the command.

The command reads a program from a file, analyses it and reports to the
error output; the types of an accepted program go to the standard
output if asked for.  Its exit code tells an accepted program from a
rejected one and from an input that cannot be read.  How long the phases
took can be shown at the end, or written to a file.
-/
import SelfTyped.Source.Reader
import SelfTyped.Program.Lowering
import SelfTyped.Timing.Report
import SelfTyped.Command.Options
import SelfTyped.Command.Failure
import SelfTyped.Command.Listing

namespace SelfTyped

namespace Command

/-! ## Surroundings -/

/-- What came of reading the input file. -/
inductive Input where
  | notOpened (fault : FileFault)
  | notRead (fault : FileFault)
  | bytes (content : ByteArray)

/-- What the command takes from its environment. -/
structure Environment where
  /-- The kind of terminal that the error output goes to. -/
  term : Option String
  /-- Whether colours are unwanted. -/
  noColour : Bool
  /-- Whether to show how long the phases took. -/
  showTimings : Bool
  /-- The file to which to write how long the phases took. -/
  timingFile : Option String
  deriving DecidableEq, Repr

namespace Environment

/-- The device that the error output goes to: a colour terminal, unless the kind of terminal is
unknown or too simple, or colours are unwanted. -/
def device (env : Environment) : Device :=
  match env.term with
  | none => .plain
  | some term => if term == "dumb" || env.noColour then .plain else .terminal

end Environment

/-! ## Phases -/

/-- Reads the program of the input. -/
def readInput (options : Options) : Input → Except Failure Source.Program
  | .notOpened fault => .error (.openInput options.input fault)
  | .notRead fault => .error (.readInput options.input fault)
  | .bytes content =>
    (Source.Program.parseBytes content options.maxDepth).mapError (.badInput options.input)

/-- How far a run came. -/
inductive Progress where
  | unreadable (failure : Failure)
  | violated (violation : Violation)
  | typed (analysis : Analysis)

/-- The phases of a run, by the labels under which their times are shown. -/
structure PhaseLabels where
  read : String
  hierarchy : String
  typing : String

/-- The labels of the phases. -/
def phaseLabels : PhaseLabels :=
  ⟨"read", "hierarchy", "typecheck"⟩

/-- What stands around the phases of a run. -/
structure Surroundings (m : Type → Type) where
  /-- Runs a phase under its label. -/
  phase : {α : Type} → String → (Unit → m α) → m α
  /-- Takes note of how far the run is. -/
  note : String → m Unit

namespace Surroundings

/-- Nothing stands around the phases. -/
def bare : Surroundings Id where
  phase _ work := work ()
  note _ := pure ()

/-- The span of every phase is kept, by the readings of a clock before and after it. -/
def timed {m : Type → Type} [Monad m] (clock : m Nat) (note : String → m Unit) :
    Surroundings (StateT (List Timing.Span) m) where
  phase label work := do
    let start ← clock
    let result ← work ()
    let stop ← clock
    modify (· ++ [⟨label, start, stop⟩])
    return result
  note step := note step

end Surroundings

namespace Progress

/-- What the analysis of a program comes to. -/
def ofAnalysis : Except Violation Analysis → Progress
  | .error violation => .violated violation
  | .ok analysis => .typed analysis

/-- Analyses a program that was read: its hierarchy, and then its types. -/
def analyseSource {m : Type → Type} [Monad m] (around : Surroundings m) (options : Options)
    (source : Source.Program) : m Progress := do
  let program := Program.ofSource options.input source
  around.note ("read " ++ toString program.classes.length ++ " classes")
  match ← around.phase phaseLabels.hierarchy fun _ => pure (Hierarchy.build program) with
  | .error violation => return .violated violation
  | .ok hierarchy =>
    around.note "the class hierarchy is valid"
    let analysis ← around.phase phaseLabels.typing fun _ =>
      pure (program.typeIn hierarchy options.maxDepth)
    around.note ("typed " ++ toString analysis.typeCount ++ " expressions")
    return .typed analysis

/-- Analyses the input that is loaded, phase by phase. -/
def analyse {m : Type → Type} [Monad m] (around : Surroundings m) (options : Options)
    (load : m Input) : m Progress := do
  match ← around.phase phaseLabels.read fun _ => readInput options <$> load with
  | .error failure => return .unreadable failure
  | .ok source => analyseSource around options source

/-- Analyses the input. -/
def ofInput (options : Options) (input : Input) : Progress :=
  (analyse .bare options (pure input)).run

theorem ofInput_eq (options : Options) (input : Input) :
    ofInput options input =
      match readInput options input with
      | .error failure => .unreadable failure
      | .ok source =>
        .ofAnalysis ((Program.ofSource options.input source).analyse options.maxDepth) := by
  simp only [ofInput, analyse, Surroundings.bare, map_pure, Id.run_bind, Id.run_pure]
  cases readInput options input with
  | error failure => rfl
  | ok source =>
    simp only [analyseSource, Program.analyse]
    cases Hierarchy.build (Program.ofSource options.input source) <;> rfl

/-- The labels of the phases that were started, in order. -/
def phases : Progress → List String
  | .unreadable _ => [phaseLabels.read]
  | .violated _ => [phaseLabels.read, phaseLabels.hierarchy]
  | .typed _ => [phaseLabels.read, phaseLabels.hierarchy, phaseLabels.typing]

end Progress

/-! ## Outcome -/

/-- How a run ends. -/
inductive Verdict where
  | accepted
  | rejected
  | unreadable
  deriving DecidableEq, Repr

namespace Verdict

/-- The exit code of a run. -/
def exitCode : Verdict → Nat
  | .accepted => 0
  | .rejected => 1
  | .unreadable => 2

end Verdict

/-- What a run writes, and how it ends. -/
structure Outcome where
  verdict : Verdict
  output : String
  errorOutput : List Piece
  deriving DecidableEq, Repr

namespace Progress

/-- The outcome of an analysis. -/
def outcome (options : Options) : Progress → Outcome
  | .unreadable failure => ⟨.unreadable, "", [.text failure.render]⟩
  | .violated violation =>
    ⟨.rejected, "", (Sink.empty.emit violation.diagnostic).writeStatistics.written⟩
  | .typed analysis =>
    let sink := Sink.empty.emitAll (analysis.findings.map Finding.diagnostic)
    let errorOutput := sink.writeStatistics.written
    if sink.errored then ⟨.rejected, "", errorOutput⟩
    else ⟨.accepted, if options.printTypes then Listing.render analysis else "", errorOutput⟩

end Progress

/-- The outcome of a run, timings apart. -/
def run (options : Options) (input : Input) : Outcome :=
  (Progress.ofInput options input).outcome options

/-! ## Timings -/

/-- What is shown of the times that phases took. -/
def timingTable (report : Timing.Report) : String :=
  "phase timings\n" ++ report.render

end Command

end SelfTyped
