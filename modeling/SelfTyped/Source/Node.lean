/-
SelfTyped.Source.Node — values that a program can be read from.

The outer parts of a program are read from a draft, so that the first
thing wrong with the text is reported, whether it is a fault of the text
or a value that does not fit.  The inside of an expression is read from
complete JSON values.  Both are nodes: a node shows its outermost shape,
and its parts are nodes again.
-/
import SelfTyped.Json.Draft
import SelfTyped.Source.Mismatch

namespace SelfTyped

namespace Source

/-- The outermost shape of a value.  A part that cannot be reached for a fault of the text is
that fault, and ends the list of parts. -/
inductive Shape (δ : Type) where
  /-- A value without parts. -/
  | scalar (found : Found)
  | sequence (items : List (Except Fault δ))
  | mapping (entries : List (Except Fault (String × δ)))

/-- Values that a program can be read from. -/
class Node (δ : Type) where
  /-- The outermost shape. -/
  shape : δ → Except Fault (Shape δ)
  /-- Passes over a value that nobody asks for. -/
  skip : δ → Except Fault Unit
  /-- The complete JSON value. -/
  buffer : δ → Except Fault Json
  /-- What is wrong with an array of the given length that has more than `size` items. -/
  surplus : (length size : Nat) → Fault

namespace Shape

variable {δ : Type}

/-- How a shape is named in a mismatch. -/
def found : Shape δ → Found
  | .scalar found => found
  | .sequence _ => .sequence
  | .mapping _ => .mapping

/-- The fault of a shape that is not the expected one. -/
def unexpected {α : Type} (shape : Shape δ) (expected : Expected) : Except Fault α :=
  .error (.mismatch (.wrongType shape.found expected))

end Shape

/-- How a number is named in a mismatch. -/
def Found.ofNumber : Json.Number → Found
  | .integer value => .integer value
  | .double value => .double value

/-- Complete JSON values are nodes without faults of the text. -/
instance : Node Json where
  shape
    | .null => .ok (.scalar .null)
    | .bool value => .ok (.scalar (.bool value))
    | .number value => .ok (.scalar (.ofNumber value))
    | .string value => .ok (.scalar (.string value))
    | .array items => .ok (.sequence (items.map .ok))
    | .object entries => .ok (.mapping (entries.map .ok))
  skip _ := .ok ()
  buffer := .ok
  surplus length size := .mismatch (.tooLong length size)

namespace DraftNode

/-- The end of a list of parts: nothing if it is closed, else the fault that stands there. -/
def ending {α : Type} (closed : Bool) : List (Except Fault α) :=
  if closed then [] else [.error .malformed]

/-- An entry of an object. -/
def entry : Option String × Json.Draft → Except Fault (String × Json.Draft)
  | (some key, value) => .ok (key, value)
  | (none, _) => .error .malformed

end DraftNode

/-- Drafts are nodes that show the faults of their text where they are met. -/
instance : Node Json.Draft where
  shape
    | .fault => .error .malformed
    | .unpaired => .error .malformed
    | .tooLarge => .error .malformed
    | .null => .ok (.scalar .null)
    | .bool value => .ok (.scalar (.bool value))
    | .number value => .ok (.scalar (.ofNumber value))
    | .string value => .ok (.scalar (.string value))
    | .array items closed => .ok (.sequence (items.map .ok ++ DraftNode.ending closed))
    | .object entries closed =>
      .ok (.mapping (entries.map DraftNode.entry ++ DraftNode.ending closed))
  skip draft := if draft.isComplete then .ok () else .error .malformed
  buffer draft :=
    match draft.toJson? with
    | some value => .ok value
    | none => .error .malformed
  surplus _ _ := .malformed

variable {δ : Type} [Node δ]

/-- Reads a string. -/
def readText (node : δ) : Except Fault String := do
  match ← Node.shape node with
  | .scalar (.string value) => .ok value
  | shape => shape.unexpected .text

/-- Reads a truth value. -/
def readBool (node : δ) : Except Fault Bool := do
  match ← Node.shape node with
  | .scalar (.bool value) => .ok value
  | shape => shape.unexpected .boolean

/-- The bound of signed 64-bit integers. -/
def literalBound : Int := Int.ofNat (Nat.pow 2 63)

/-- Reads an integer literal: a signed 64-bit integer. -/
def readLiteral (node : δ) : Except Fault Int := do
  match ← Node.shape node with
  | .scalar (.integer value) =>
    if -literalBound ≤ value ∧ value < literalBound then .ok value
    else .error (.mismatch (.outOfRange value .literal))
  | shape => shape.unexpected .literal

/-- Reads a line number: an unsigned 64-bit integer, which every integer that is not negative
is. -/
def readLine (node : δ) : Except Fault Nat := do
  match ← Node.shape node with
  | .scalar (.integer value) =>
    if 0 ≤ value then .ok value.toNat else .error (.mismatch (.outOfRange value .line))
  | shape => shape.unexpected .line

/-- Reads a value that may be `null`. -/
def readOptional {α : Type} (read : δ → Except Fault α) (node : δ) : Except Fault (Option α) := do
  match ← Node.shape node with
  | .scalar .null => .ok none
  | _ => some <$> read node

/-- Reads the items of an array. -/
def readItems {α : Type} (read : δ → Except Fault α) (node : δ) : Except Fault (List α) := do
  match ← Node.shape node with
  | .sequence items => items.mapM fun item => do read (← item)
  | shape => shape.unexpected .sequence

end Source

end SelfTyped
