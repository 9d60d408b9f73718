/-
SelfTyped.Decimal.Notation — how doubles are written in messages.

A double is written with the fewest digits that denote it.  Numbers of
moderate size are written positionally, always with a point; all others
with one digit before the point and a signed exponent.
-/
import SelfTyped.Decimal.Shortest

namespace SelfTyped

namespace Decimal

/-- How numbers are laid out. -/
structure Notation where
  /-- The least exponent of the first digit with which a number is written positionally. -/
  leastPositional : Int
  /-- The greatest exponent of the first digit with which a number is written positionally. -/
  greatestPositional : Int
  deriving DecidableEq, Repr

/-- The notation of messages. -/
def messageNotation : Notation :=
  ⟨-5, 15⟩

/-- A number of zeros. -/
def zeros (count : Nat) : List Char :=
  List.replicate count '0'

/-- Digits with the point after the digit of exponent zero. -/
def positional (digits : List Char) (leading : Int) : List Char :=
  if leading < 0 then ['0', '.'] ++ zeros (-leading - 1).toNat ++ digits
  else
    let before := leading.toNat + 1
    let whole := digits.take before ++ zeros (before - digits.length)
    let fraction := digits.drop before
    whole ++ ['.'] ++ (if fraction.isEmpty then ['0'] else fraction)

/-- An exponent with its sign. -/
def exponent (value : Int) : List Char :=
  (if value < 0 then '-' else '+') :: Nat.toDigits 10 value.natAbs

/-- Digits with the point after the first one, and the exponent of that one. -/
def exponential (digits : List Char) (leading : Int) : List Char :=
  let fraction := digits.drop 1
  digits.take 1 ++ (if fraction.isEmpty then [] else '.' :: fraction) ++
    'e' :: exponent leading

/-- A positive number in a notation. -/
def Scientific.render (form : Notation) (s : Scientific) : List Char :=
  let digits := Nat.toDigits 10 s.digits
  let leading := s.exponent + digits.length - 1
  if form.leastPositional ≤ leading ∧ leading ≤ form.greatestPositional then
    positional digits leading
  else exponential digits leading

/-- A finite double as it is written in messages. -/
def render (value : Float) : String :=
  let bits := value.toBits
  let sign := if bits.toNat < Nat.pow 2 63 then [] else ['-']
  let binary := Binary.ofBits bits
  let magnitude :=
    if binary.mantissa = 0 then ['0', '.', '0'] else (shortest binary).render messageNotation
  String.ofList (sign ++ magnitude)

end Decimal

end SelfTyped
