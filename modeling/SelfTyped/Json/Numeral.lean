/-
SelfTyped.Json.Numeral — JSON number literals and their values.

A literal without fraction and exponent whose value fits 64 bits denotes
an integer.  Any other literal denotes a double: its leading digits, as
many as fit 64 bits, scaled by one power of ten.  A double that would
be infinite does not exist, so such a literal has no value although it
is well-formed.
-/
import SelfTyped.Json.Basic

namespace SelfTyped

namespace Json

/-- The parts of a number literal.  Digits are given by their values. -/
structure Numeral where
  negative : Bool
  whole : List Nat
  /-- The digits after the point; none if there is no point. -/
  fraction : List Nat
  /-- Whether the exponent is negative, and its digits. -/
  exponent : Option (Bool × List Nat)
  deriving DecidableEq, Repr

namespace Numeral

/-- The values of the digits at the start of a text, and the text after them. -/
def digits (text : List Char) : List Nat × List Char :=
  ((text.takeWhile Char.isDigit).map fun c => c.toNat - '0'.toNat, text.dropWhile Char.isDigit)

/-- Reads a minus sign, if there is one. -/
def sign : List Char → Bool × List Char
  | '-' :: rest => (true, rest)
  | text => (false, text)

/-- Reads the digits before the point.  A zero may only stand alone. -/
def whole? (text : List Char) : Option (List Nat × List Char) :=
  match digits text with
  | ([], _) => none
  | (0 :: _ :: _, _) => none
  | read => some read

/-- Reads the point and the digits after it, if there is a point. -/
def fraction? : List Char → Option (List Nat × List Char)
  | '.' :: rest =>
    match digits rest with
    | ([], _) => none
    | read => some read
  | text => some ([], text)

/-- Reads the sign and the digits of an exponent after its letter. -/
def exponentDigits? (text : List Char) : Option (Option (Bool × List Nat) × List Char) :=
  let (negative, rest) :=
    match text with
    | '-' :: rest => (true, rest)
    | '+' :: rest => (false, rest)
    | rest => (false, rest)
  match digits rest with
  | ([], _) => none
  | (read, rest) => some (some (negative, read), rest)

/-- Reads an exponent, if there is one. -/
def exponent? : List Char → Option (Option (Bool × List Nat) × List Char)
  | 'e' :: rest => exponentDigits? rest
  | 'E' :: rest => exponentDigits? rest
  | text => some (none, text)

/-- Reads a number literal as far as it goes, and the text after it. -/
def read? (text : List Char) : Option (Numeral × List Char) := do
  let (negative, text) := sign text
  let (whole, text) ← whole? text
  let (fraction, text) ← fraction? text
  let (exponent, text) ← exponent? text
  return (⟨negative, whole, fraction, exponent⟩, text)

/-- The number of values of a 64-bit word. -/
def wordCount : Nat := Nat.pow 2 64

/-- Appends digits to a number for as long as the result fits 64 bits.  Gives the number and the
digits left over. -/
def fill (start : Nat) : List Nat → Nat × List Nat
  | [] => (start, [])
  | digit :: rest =>
    if start * 10 + digit < wordCount then fill (start * 10 + digit) rest
    else (start, digit :: rest)

/-- The number that digits denote. -/
def ofDigits (digits : List Nat) : Nat :=
  digits.foldl (fun value digit => value * 10 + digit) 0

/-- The largest exponent of a power of ten that is a finite double. -/
def maxTenPower : Nat := 308

/-- A power of ten as a double. -/
def tenPower (exponent : Nat) : Float :=
  Float.ofScientific 1 false exponent

/-- A 64-bit number times a power of ten.  A number too large for a double has no value; one
that is too small is zero. -/
def scale? (significand : Nat) (exponent : Int) : Option Float :=
  let start := Float.ofNat significand
  match exponent with
  | .ofNat e =>
    if significand = 0 then some start
    else if maxTenPower < e then none
    else
      let scaled := start * tenPower e
      if scaled.isInf then none else some scaled
  | .negSucc k =>
    let e := k + 1
    if e ≤ maxTenPower then some (start / tenPower e)
    else if e ≤ 2 * maxTenPower then
      some (start / tenPower maxTenPower / tenPower (e - maxTenPower))
    else some 0

/-- The exponent that is written, as a number. -/
def writtenExponent : Option (Bool × List Nat) → Int
  | none => 0
  | some (negative, digits) => if negative then -(ofDigits digits : Int) else ofDigits digits

/-- The value of a literal as a double, without its sign. -/
def magnitude? (n : Numeral) : Option Float :=
  let (leading, dropped) := fill 0 n.whole
  let (significand, unread) := fill leading n.fraction
  let used := n.fraction.length - unread.length
  scale? significand ((dropped.length : Int) - used + writtenExponent n.exponent)

/-- The value of a literal as a double. -/
def double? (n : Numeral) : Option Float :=
  n.magnitude?.map fun value => if n.negative then -value else value

/-- The value of a literal as a 64-bit integer.  There is no negative zero among integers. -/
def integer? (n : Numeral) : Option Int :=
  if n.fraction.isEmpty && n.exponent.isNone then
    let value := ofDigits n.whole
    if n.negative then
      if 0 < value ∧ value ≤ wordCount / 2 then some (-(value : Int)) else none
    else if value < wordCount then some value else none
  else none

/-- The value of a literal. -/
def value? (n : Numeral) : Option Number :=
  match n.integer? with
  | some value => some (.integer value)
  | none => n.double?.map .double

end Numeral

end Json

end SelfTyped
