/-
SelfTyped.Command.Failure — why the command could not do its work.

A failure is shown with its causes, the closest one first.
-/
import SelfTyped.Source.ReadError

namespace SelfTyped

namespace Command

/-- Why a file cannot be opened, read, created or written, in the words of the system. -/
structure FileFault where
  description : String
  /-- The number of the fault, if the system gives it one. -/
  code : Option Nat
  deriving DecidableEq, Repr

/-- Why the command could not do its work. -/
inductive Failure where
  | openInput (path : String) (fault : FileFault)
  | readInput (path : String) (fault : FileFault)
  | badInput (path : String) (error : Source.ReadError)
  | createTimings (path : String) (fault : FileFault)
  | writeTimings (fault : FileFault)
  deriving Repr

namespace FileFault

/-- The wording of a fault of a file. -/
def message (fault : FileFault) : String :=
  match fault.code with
  | some code => fault.description ++ " (os error " ++ toString code ++ ")"
  | none => fault.description

end FileFault

namespace Failure

/-- The summary of a failure, followed by its causes. -/
def chain : Failure → List String
  | .openInput path fault => ["cannot open input file " ++ Quoted.encode path, fault.message]
  | .readInput path fault =>
    ["cannot read syntax tree from " ++ Quoted.encode path, "cannot read syntax tree",
      fault.message]
  | .badInput path error =>
    ["cannot read syntax tree from " ++ Quoted.encode path, error.summary, error.cause]
  | .createTimings path fault =>
    ["cannot create timing file " ++ Quoted.encode path, fault.message]
  | .writeTimings fault => ["cannot write timings", fault.message]

/-- A failure as it is shown: a line for the summary and one for each cause. -/
def render (failure : Failure) : String :=
  match failure.chain with
  | [] => ""
  | summary :: causes =>
    "error: " ++ summary ++ "\n" ++
      String.join (causes.map fun cause => "caused by: " ++ cause ++ "\n")

end Failure

end Command

end SelfTyped
