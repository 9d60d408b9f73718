/-
SelfTyped.Source.ReadError — why a text does not give a program.

An error has a summary, which says at which stage reading failed, and a
cause.
-/
import SelfTyped.Source.Mismatch

namespace SelfTyped

namespace Source

/-- Why a text does not give a program. -/
inductive ReadError where
  /-- The bytes of the text are not UTF-8. -/
  | notUtf8
  /-- The text nests deeper than the limit. -/
  | tooDeep (limit : Nat)
  /-- Something in the text is wrong. -/
  | fault (fault : Fault)
  deriving Repr

namespace ReadError

/-- The stage at which reading failed. -/
def summary : ReadError → String
  | .notUtf8 => "cannot read syntax tree"
  | .tooDeep _ => "malformed syntax tree"
  | .fault _ => "malformed syntax tree"

/-- What was wrong. -/
def cause : ReadError → String
  | .notUtf8 => "stream did not contain valid UTF-8"
  | .tooDeep limit => "syntax tree nests deeper than " ++ toString limit ++ " levels"
  | .fault .malformed => "the text is not well-formed JSON"
  | .fault (.mismatch mismatch) => mismatch.message

end ReadError

end Source

end SelfTyped
