/-
SelfTyped.Json.Basic — JSON values.

Objects keep their entries in the order of the text, repeated keys
included, because readers of objects may tell them apart.  A number
without fraction and exponent is an integer if it fits 64 bits, signed
when it is negative and unsigned when it is not; all other numbers are
doubles.
-/

namespace SelfTyped

namespace Json

/-- A JSON number. -/
inductive Number where
  | integer (value : Int)
  | double (value : Float)
  deriving Repr

end Json

/-- A JSON value. -/
inductive Json where
  | null
  | bool (value : Bool)
  | number (value : Json.Number)
  | string (value : String)
  | array (items : List Json)
  | object (entries : List (String × Json))
  deriving Repr

namespace Json

/-- The blank characters that may stand between tokens. -/
def isBlank (c : Char) : Bool :=
  c == ' ' || c == '\t' || c == '\n' || c == '\r'

/-- A text without the blanks at its start. -/
def skipBlanks (text : List Char) : List Char :=
  text.dropWhile isBlank

mutual

/-- The largest number of objects and arrays that are inside one another. -/
def depth : Json → Nat
  | .array items => depthItems items + 1
  | .object entries => depthEntries entries + 1
  | _ => 0

/-- The depth of the deepest item. -/
def depthItems : List Json → Nat
  | [] => 0
  | item :: rest => max item.depth (depthItems rest)

/-- The depth of the deepest entry. -/
def depthEntries : List (String × Json) → Nat
  | [] => 0
  | (_, value) :: rest => max value.depth (depthEntries rest)

end

end Json

end SelfTyped
