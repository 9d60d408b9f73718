/-
SelfTyped.Text.Suggestion — which known name was probably meant by an
unknown one.

Two names are related when at most two edits separate them.  The best
suggestion for a name is its closest related name; of two equally close
ones the one that comes first in the order of texts, so that the answer
does not hang on the order in which candidates are offered.
-/
import SelfTyped.Text.Name
import SelfTyped.Text.EditDistance

namespace SelfTyped

/-- How close two names are. -/
inductive Relation where
  | related (distance : Nat)
  | unrelated
  deriving DecidableEq, Repr, BEq

namespace Relation

/-- The largest edit distance at which names still count as related. -/
def reach : Nat := 2

/-- The relation between two names. -/
def between (a b : Name) : Relation :=
  let distance := editDistance a b
  if distance ≤ reach then .related distance else .unrelated

/-- Whether the names are related at all. -/
def isRelated : Relation → Bool
  | .related _ => true
  | .unrelated => false

/-- Closer relations come first; unrelated names come after all related ones. -/
def order : Relation → Relation → Ordering
  | .related d, .related e => compare d e
  | .related _, .unrelated => .lt
  | .unrelated, .related _ => .gt
  | .unrelated, .unrelated => .eq

end Relation

namespace Suggestion

/-- Whether `a` is a better suggestion than `b`: closer, or equally close and earlier as a text. -/
def better (a b : Relation × Name) : Bool :=
  match a.1.order b.1 with
  | .lt => true
  | .gt => false
  | .eq => decide (a.2 < b.2)

/-- The better of a suggestion made so far, if any, and a further one. -/
def improve (best : Option (Relation × Name)) (next : Relation × Name) :
    Option (Relation × Name) :=
  match best with
  | none => some next
  | some b => if better next b then some next else some b

end Suggestion

/-- The candidate that is closest to `name`.  The name itself is never suggested. -/
def mostRelated (name : Name) (candidates : List Name) : Option Name :=
  let related := candidates.filterMap fun candidate =>
    let relation := Relation.between name candidate
    if candidate ≠ name ∧ relation.isRelated then some (relation, candidate) else none
  (related.foldl Suggestion.improve none).map (·.2)

/-- The words appended to a message about an unknown name. -/
def hintText : Option Name → String
  | some candidate => " Did you mean '" ++ candidate ++ "'?"
  | none => ""

@[simp] theorem hintText_some (candidate : Name) :
    hintText (some candidate) = " Did you mean '" ++ candidate ++ "'?" := rfl

@[simp] theorem hintText_none : hintText none = "" := rfl

end SelfTyped
