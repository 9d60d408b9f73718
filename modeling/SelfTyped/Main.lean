/-
SelfTyped.Main — the command.

It reads the syntax tree of a program from a file and checks the
program.  Everything but reading, writing and looking at the clock is
decided in `SelfTyped.Command.Run`.
-/
import SelfTyped.Command.Run

namespace SelfTyped

namespace Command

/-- A fault of a file as it was met. -/
def faultOf : IO.Error → FileFault
  | .alreadyExists _ code description | .interrupted _ code description
  | .noFileOrDirectory _ code description | .invalidArgument _ code description
  | .permissionDenied _ code description | .resourceExhausted _ code description
  | .inappropriateType _ code description | .noSuchThing _ code description
  | .otherError code description | .resourceBusy code description
  | .resourceVanished code description | .unsupportedOperation code description
  | .hardwareFault code description | .unsatisfiedConstraints code description
  | .illegalOperation code description | .protocolError code description
  | .timeExpired code description => ⟨description, some code.toNat⟩
  | .unexpectedEof => ⟨"unexpected end of file", none⟩
  | .userError description => ⟨description, none⟩

/-- Opens and reads the input file. -/
def loadInput (path : String) : IO Input := do
  match ← (IO.FS.Handle.mk path .read).toBaseIO with
  | .error error => return .notOpened (faultOf error)
  | .ok handle =>
    match ← handle.readBinToEnd.toBaseIO with
    | .error error => return .notRead (faultOf error)
    | .ok content => return .bytes content

/-- The environment of the command. -/
def loadEnvironment : IO Environment := do
  return {
    term := ← IO.getEnv "TERM"
    noColour := (← IO.getEnv "NO_COLOR").isSome
    showTimings := (← IO.getEnv "MEASURE_STDERR").isSome
    timingFile := ← IO.getEnv "MEASURE_JSON" }

/-- Logs how far the analysis is, if that is wanted. -/
def logStep (options : Options) (step : String) : IO Unit := do
  if options.verbose then IO.eprintln ("debug: " ++ step)

/-- The clock of the machine and the log stand around the phases of a run. -/
def surroundings (options : Options) : Surroundings (StateT (List Timing.Span) IO) :=
  .timed IO.monoNanosNow (logStep options)

/-- Analyses the input file, and gives the spans of the phases. -/
def analyseInput (options : Options) : IO (Progress × List Timing.Span) :=
  (Progress.analyse (surroundings options) options (loadInput options.input)).run []

/-- Shows how long the phases took, as the environment asks for. -/
def reportTimings (env : Environment) (report : Timing.Report) : IO Unit := do
  if env.showTimings then
    IO.eprint (timingTable report)
  match env.timingFile with
  | none => return
  | some path =>
    match ← (IO.FS.Handle.mk path .write).toBaseIO with
    | .error error => IO.eprint (Failure.createTimings path (faultOf error)).render
    | .ok handle =>
      let write : IO Unit := do
        handle.putStr report.toJson.toText
        handle.flush
      match ← write.toBaseIO with
      | .ok () => return
      | .error error => IO.eprint (Failure.writeTimings (faultOf error)).render

/-- Runs the command with its options and gives the exit code. -/
def runWith (options : Options) : IO UInt32 := do
  let env ← loadEnvironment
  let (progress, spans) ← analyseInput options
  let outcome := progress.outcome options
  IO.eprint (Piece.renderAll env.device outcome.errorOutput)
  IO.print outcome.output
  reportTimings env (Timing.Report.ofSpans spans)
  return outcome.verdict.exitCode.toUInt32

end Command

end SelfTyped

/-- Checks the program in a file. -/
def main (args : List String) : IO UInt32 := do
  match SelfTyped.Command.Options.parse? args with
  | some options => SelfTyped.Command.runWith options
  | none =>
    IO.eprintln SelfTyped.Command.Options.usage
    return 1
