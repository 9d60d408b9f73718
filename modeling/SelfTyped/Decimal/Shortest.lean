/-
SelfTyped.Decimal.Shortest — the shortest decimal that denotes a double.

A double stands for all reals that round to it; they form an interval
around it.  Among the decimals in the interval those with the fewest
digits are sought, and of these the one nearest to the double.  On the
grid of decimals with a given number of digits only the two neighbours
of the double have to be tried: if any point of the grid lies in the
interval, one of them does.
-/

namespace SelfTyped

namespace Decimal

/-- A number `digits * 10 ^ exponent`. -/
structure Scientific where
  digits : Nat
  exponent : Int
  deriving DecidableEq, Repr

/-- A positive double `mantissa * 2 ^ exponent` and what lies around it. -/
structure Binary where
  mantissa : Nat
  exponent : Int
  /-- The doubles below are twice as dense as those above. -/
  lowest : Bool
  deriving DecidableEq, Repr

namespace Binary

/-- The number of bits of a double's fraction. -/
def fractionBits : Nat := 52

/-- The magnitude of a finite double, from its bits. -/
def ofBits (bits : UInt64) : Binary :=
  let magnitude := bits.toNat % Nat.pow 2 63
  let fraction := magnitude % Nat.pow 2 fractionBits
  let biased : Nat := magnitude / Nat.pow 2 fractionBits
  if biased = 0 then ⟨fraction, -1074, false⟩
  else ⟨fraction + Nat.pow 2 fractionBits, (biased : Int) - 1075, fraction = 0 && 1 < biased⟩

end Binary

/-- An interval of fractions with a common denominator, and a point in it. -/
structure Interval where
  low : Nat
  value : Nat
  high : Nat
  denominator : Nat
  /-- Whether the ends belong to the interval. -/
  closed : Bool
  deriving DecidableEq, Repr

namespace Interval

/-- The reals that round to a double: half the distance to its neighbours, and the ends where
ties round to it.  Counted in quarters, so that every bound is whole. -/
def around (b : Binary) : Interval :=
  let scale := Nat.pow 2 (b.exponent - 2).toNat
  let low := 4 * b.mantissa - (if b.lowest then 1 else 2)
  ⟨low * scale, 4 * b.mantissa * scale, (4 * b.mantissa + 2) * scale,
    Nat.pow 2 (2 - b.exponent).toNat, b.mantissa % 2 = 0⟩

/-- The interval in units of a power of ten. -/
def inUnits (i : Interval) (exponent : Int) : Interval :=
  let factor := Nat.pow 10 (-exponent).toNat
  { i with
    low := i.low * factor
    value := i.value * factor
    high := i.high * factor
    denominator := i.denominator * Nat.pow 10 exponent.toNat }

/-- Whether a whole number lies in the interval. -/
def contains (i : Interval) (n : Nat) : Bool :=
  let scaled := n * i.denominator
  if i.closed then decide (i.low ≤ scaled) && decide (scaled ≤ i.high)
  else decide (i.low < scaled) && decide (scaled < i.high)

/-- The whole number next to the point that lies in the interval: the nearer one if both
neighbours do, the even one of two that are equally near. -/
def neighbour? (i : Interval) : Option Nat :=
  let below := i.value / i.denominator
  let rest := i.value % i.denominator
  match i.contains below, i.contains (below + 1) with
  | false, false => none
  | true, false => some below
  | false, true => some (below + 1)
  | true, true =>
    if 2 * rest < i.denominator then some below
    else if i.denominator < 2 * rest then some (below + 1)
    else if below % 2 = 0 then some below
    else some (below + 1)

end Interval

/-- The number of decimal digits of a whole number. -/
def digitCount (n : Nat) : Nat :=
  (Nat.toDigits 10 n).length

/-- The exponent of the first digit of a positive fraction. -/
def leadingExponent (numerator denominator : Nat) : Int :=
  if denominator ≤ numerator then (digitCount (numerator / denominator) : Int) - 1
  else
    let places := digitCount (denominator / numerator)
    if denominator ≤ numerator * Nat.pow 10 (places - 1) then -((places : Int) - 1)
    else -(places : Int)

/-- Digits enough for every double. -/
def maxDigits : Nat := 17

/-- Leaves out the zeros at the end of a number.  The fuel bounds their count. -/
def stripZeros : Nat → Scientific → Scientific
  | 0, s => s
  | fuel + 1, s =>
    if s.digits ≠ 0 ∧ s.digits % 10 = 0 then stripZeros fuel ⟨s.digits / 10, s.exponent + 1⟩
    else s

/-- The shortest decimal that denotes a positive double. -/
def shortest (b : Binary) : Scientific :=
  let interval := Interval.around b
  let leading := leadingExponent interval.value interval.denominator
  let found := (List.range maxDigits).findSome? fun (count : Nat) =>
    let exponent := leading - count
    (interval.inUnits exponent).neighbour?.map fun digits => Scientific.mk digits exponent
  stripZeros (maxDigits + 1) (found.getD ⟨0, 0⟩)

end Decimal

end SelfTyped
