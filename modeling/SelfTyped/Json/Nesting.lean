/-
SelfTyped.Json.Nesting — how deeply brackets nest in a text.

The measure is taken before the text is read as JSON, and also of texts
that are not JSON: brackets inside string literals do not count, and a
closing bracket without its opening one is passed over.  `nestingLimit`
is the measure that a text may have if its expressions nest at most a
given number of levels.
-/

namespace SelfTyped

namespace Json

/-- The state of the measurement between two characters. -/
structure Scan where
  depth : Nat := 0
  deepest : Nat := 0
  inString : Bool := false
  /-- The last character was a backslash that hides the next one. -/
  escaped : Bool := false
  deriving DecidableEq, Repr

namespace Scan

/-- Passes a character inside a string literal. -/
def stepString (s : Scan) (c : Char) : Scan :=
  if s.escaped then { s with escaped := false }
  else if c = '\\' then { s with escaped := true }
  else if c = '"' then { s with inString := false }
  else s

/-- Passes a character outside of string literals. -/
def stepOutside (s : Scan) (c : Char) : Scan :=
  if c = '"' then { s with inString := true }
  else if c = '{' ∨ c = '[' then
    { s with depth := s.depth + 1, deepest := max s.deepest (s.depth + 1) }
  else if c = '}' ∨ c = ']' then { s with depth := s.depth - 1 }
  else s

/-- Passes a character. -/
def step (s : Scan) (c : Char) : Scan :=
  if s.inString then s.stepString c else s.stepOutside c

/-- Passes a byte of a text.  The bytes that mean something are characters by themselves. -/
def stepByte (s : Scan) (byte : UInt8) : Scan :=
  s.step (.ofUInt8 byte)

end Scan

/-- The deepest nesting of objects and arrays in a text. -/
def nestingDepth (text : List Char) : Nat :=
  (text.foldl Scan.step {}).deepest

/-- The deepest nesting of objects and arrays in a text, measured on its bytes. -/
def nestingDepthOfBytes (bytes : List UInt8) : Nat :=
  (bytes.foldl Scan.stepByte {}).deepest

/-- The largest 64-bit word; levels beyond it are not counted. -/
def maxWord : Nat := Nat.pow 2 64 - 1

/-- Addition that stops at the largest word. -/
def addLevels (a b : Nat) : Nat :=
  min (a + b) maxWord

/-- Multiplication that stops at the largest word. -/
def timesLevels (a b : Nat) : Nat :=
  min (a * b) maxWord

/-- The levels that an expression can add to the one it is part of: the body of a branch stands
in an object, in an array, in an object, in an object. -/
def levelsPerExpr : Nat := 4

/-- The levels around the body of a method, with some to spare. -/
def levelsAboveExpr : Nat := 8

/-- The nesting that a text may have when its expressions may nest `maxDepth` levels. -/
def nestingLimit (maxDepth : Nat) : Nat :=
  addLevels (timesLevels (addLevels maxDepth 1) levelsPerExpr) levelsAboveExpr

end Json

end SelfTyped
