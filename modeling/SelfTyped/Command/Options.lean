/-
SelfTyped.Command.Options — what the command was asked to do.

An argument that starts with a hyphen is an option, unless it is a
hyphen alone; all other arguments are the value of the option before
them or the input file.  Two hyphens alone end the options: only the
input file can follow.  No option and no file may be given twice.
-/

namespace SelfTyped

namespace Command

/-! ## Arguments -/

/-- An argument by its form. -/
inductive Argument where
  /-- No option follows. -/
  | separator
  /-- An option with a name, and the value that is attached to it by an equals sign. -/
  | long (name : String) (value : Option String)
  /-- Options of one letter each. -/
  | short (letters : List Char)
  | plain (text : String)
  deriving DecidableEq, Repr

namespace Argument

/-- An option with a name, its hyphens left out.  Several equals signs attach a value as one
does. -/
def ofLong (chars : List Char) : Argument :=
  let attached :=
    match chars.dropWhile (· != '=') with
    | [] => none
    | signs => some (String.ofList (signs.dropWhile (· == '=')))
  .long (String.ofList (chars.takeWhile (· != '='))) attached

/-- The form of an argument.  A name follows two hyphens or more. -/
def ofString (text : String) : Argument :=
  match text.toList with
  | ['-', '-'] => .separator
  | '-' :: '-' :: rest => ofLong (rest.dropWhile (· == '-'))
  | '-' :: letter :: rest => .short (letter :: rest)
  | _ => .plain text

end Argument

/-! ## Options -/

/-- The options of the command. -/
structure Options where
  /-- The file that holds the program. -/
  input : String
  /-- Whether to print the types of an accepted program. -/
  printTypes : Bool
  /-- The number of levels that expressions may nest. -/
  maxDepth : Nat
  /-- Whether to log the steps of the analysis. -/
  verbose : Bool
  deriving DecidableEq, Repr

/-- The options that were given so far. -/
structure Given where
  input : Option String := none
  printTypes : Bool := false
  /-- Whether a nesting limit was asked for, be it without a value. -/
  limited : Bool := false
  maxDepth : Option Nat := none
  verbose : Bool := false
  deriving DecidableEq, Repr

namespace Options

/-- The nesting limit if none is given. -/
def defaultMaxDepth : Nat := 1000

/-- How the command is called. -/
def usage : String :=
  "usage: [--print-types] [--max-depth LEVELS] [--verbose] FILE"

/-- The number of levels that a text stands for: decimal digits, after a plus sign or not, whose
value fits 64 bits. -/
def levels? (value : String) : Option Nat :=
  let digits :=
    match value.toList with
    | '+' :: rest => rest
    | chars => chars
  if digits.isEmpty || !digits.all Char.isDigit then none
  else
    let levels := Nat.ofDigitChars 10 digits 0
    if levels < Nat.pow 2 64 then some levels else none

/-- Takes the input file. -/
def takeInput (given : Given) (file : String) : Option Given :=
  if given.input.isSome then none else some { given with input := some file }

/-- Takes the wish for types. -/
def takePrintTypes (given : Given) : Option Given :=
  if given.printTypes then none else some { given with printTypes := true }

/-- Takes the wish for a log. -/
def takeVerbose (given : Given) : Option Given :=
  if given.verbose then none else some { given with verbose := true }

/-- Takes the wish for a nesting limit. -/
def takeLimited (given : Given) : Option Given :=
  if given.limited then none else some { given with limited := true }

/-- Takes the value of the nesting limit. -/
def takeLevels (given : Given) (value : String) : Option Given :=
  (levels? value).map fun levels => { given with maxDepth := some levels }

/-- Takes the arguments of the command one after the other.  `awaiting` says that the nesting
limit was asked for just before and has no value yet.  It takes the next argument for its value
unless that is an option, and keeps its default if no value comes.  A value attached to an option
that has none is ignored. -/
def takeAll (given : Given) (awaiting : Bool) : List String → Option Given
  | [] => some given
  | argument :: rest =>
    match Argument.ofString argument with
    | .separator => rest.foldlM takeInput given
    | .long name value =>
      if name == "max-depth" then do
        let given ← takeLimited given
        match value with
        | none => takeAll given true rest
        | some value => do takeAll (← takeLevels given value) false rest
      else if name == "print-types" then do takeAll (← takePrintTypes given) false rest
      else if name == "verbose" then do takeAll (← takeVerbose given) false rest
      else none
    | .short letters =>
      if letters == ['v'] then do takeAll (← takeVerbose given) false rest else none
    | .plain text =>
      if awaiting then do takeAll (← takeLevels given text) false rest
      else do takeAll (← takeInput given text) false rest

/-- The options that arguments stand for. -/
def parse? (args : List String) : Option Options := do
  let given ← takeAll {} false args
  let input ← given.input
  return ⟨input, given.printTypes, given.maxDepth.getD defaultMaxDepth, given.verbose⟩

end Options

end Command

end SelfTyped
