/-
SelfTyped.Interned.Suggestion — suggestions among symbols.

The candidates for a suggestion are symbols of the table that the unknown
name was entered in too.  Whether a candidate is that name is decided by
entry, how close it is by text, and equally close candidates are put in the
order of their texts.
-/
import SelfTyped.Text.Suggestion
import SelfTyped.Text.Table

namespace SelfTyped

namespace Interned

namespace Suggestion

/-- The order of suggestions: closer ones come first, equally close ones by text. -/
def order (a b : Relation × Symbol) : Ordering :=
  (a.1.order b.1).then (a.2.order b.2)

/-- The first of a suggestion made so far, if any, and a further one. -/
def least (best : Option (Relation × Symbol)) (next : Relation × Symbol) :
    Option (Relation × Symbol) :=
  match best with
  | none => some next
  | some b => if order b next = .gt then some next else some b

end Suggestion

/-- The candidate that is closest to a symbol.  The symbol itself is never suggested. -/
def mostRelated (symbol : Symbol) (candidates : List Symbol) : Option Symbol :=
  let others := candidates.filter fun candidate => candidate != symbol
  let compared := others.map fun candidate =>
    (Relation.between symbol.text candidate.text, candidate)
  let related := compared.filter fun (relation, _) => relation.isRelated
  (related.foldl Suggestion.least none).map (·.2)

end Interned

end SelfTyped
