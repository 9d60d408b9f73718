/-
SelfTyped.Source.Mismatch — what can be wrong with a program's text.

Either the text is not well-formed JSON, or a value in it is not what
the program needs there.  The second case has a cause, and every cause
has one wording (`Mismatch.message`).
-/
import SelfTyped.Json.Basic
import SelfTyped.Text.Quoted
import SelfTyped.Decimal.Notation

namespace SelfTyped

namespace Source

/-- What stands at a place of the text. -/
inductive Found where
  | null
  | bool (value : Bool)
  | integer (value : Int)
  | double (value : Float)
  | string (value : String)
  | sequence
  | mapping
  /-- A name of a variant that comes without the value the variant needs. -/
  | unitVariant
  deriving Repr

/-- What was expected at a place of the text. -/
inductive Expected where
  | text
  | boolean
  /-- A signed 64-bit integer. -/
  | literal
  /-- An unsigned 64-bit integer. -/
  | line
  | sequence
  /-- A record, given by its title. -/
  | record (title : String)
  | structVariant
  | tupleVariant
  | newtypeVariant
  | unit
  deriving DecidableEq, Repr

/-- Why a value does not fit. -/
inductive Mismatch where
  | wrongType (found : Found) (expected : Expected)
  | outOfRange (value : Int) (expected : Expected)
  /-- A record written as an array ends before the field number `index`, which it needs. -/
  | tooShort (index : Nat) (title : String) (size : Nat)
  /-- A record written as an array goes on after its last field. -/
  | tooLong (length size : Nat)
  | unknownFeature (key : String)
  | missingField (key : String)
  | duplicateField (key : String)
  /-- No key of an expression names a kind. -/
  | noKind
  deriving Repr

/-- Why a text cannot be read as a program. -/
inductive Fault where
  /-- The text is not well-formed JSON, or an object or array goes on where it has to end. -/
  | malformed
  | mismatch (cause : Mismatch)
  deriving Repr

namespace Found

/-- The wording of what was found. -/
def describe : Found → String
  | .null => "null"
  | .bool value => "boolean `" ++ toString value ++ "`"
  | .integer value => "integer `" ++ toString value ++ "`"
  | .double value => "floating point `" ++ Decimal.render value ++ "`"
  | .string value => "string " ++ Quoted.encode value
  | .sequence => "sequence"
  | .mapping => "map"
  | .unitVariant => "unit variant"

end Found

namespace Expected

/-- The wording of what was expected. -/
def describe : Expected → String
  | .text => "a string"
  | .boolean => "a boolean"
  | .literal => "i64"
  | .line => "usize"
  | .sequence => "a sequence"
  | .record title => title
  | .structVariant => "struct variant"
  | .tupleVariant => "tuple variant"
  | .newtypeVariant => "newtype variant"
  | .unit => "unit"

end Expected

namespace Mismatch

/-- A number of elements. -/
def elements (size : Nat) : String :=
  if size = 1 then "1 element" else toString size ++ " elements"

/-- The wording of a mismatch. -/
def message : Mismatch → String
  | .wrongType found expected =>
    "invalid type: " ++ found.describe ++ ", expected " ++ expected.describe
  | .outOfRange value expected =>
    "invalid value: integer `" ++ toString value ++ "`, expected " ++ expected.describe
  | .tooShort index title size =>
    "invalid length " ++ toString index ++ ", expected " ++ title ++ " with " ++ elements size
  | .tooLong length size =>
    "invalid length " ++ toString length ++ ", expected " ++ elements size ++ " in sequence"
  | .unknownFeature key =>
    "unknown variant `" ++ key ++ "`, expected `attribute` or `method`"
  | .missingField key => "missing field `" ++ key ++ "`"
  | .duplicateField key => "duplicate field `" ++ key ++ "`"
  | .noKind => "no variant of enum RawExprKind found in flattened data"

end Mismatch

end Source

end SelfTyped
