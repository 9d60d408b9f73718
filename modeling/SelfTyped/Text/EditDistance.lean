/-
SelfTyped.Text.EditDistance — the least number of insertions, deletions
and replacements of single characters that turn one text into another.

The table of distances between prefixes is filled row by row.  Row `i`
holds the distances from the first `i` characters of the source to every
prefix of the target, so only one row is kept at a time.
-/

namespace SelfTyped

/-- The entries of the row for one more source character `c`, from the target character that
follows on.  `left` is the entry just written, the row above starts at its diagonal entry. -/
def extendRow (c : Char) : List Char → List Nat → Nat → List Nat
  | t :: target, diagonal :: above :: row, left =>
    let entry := min (min (above + 1) (left + 1)) (if t = c then diagonal else diagonal + 1)
    entry :: extendRow c target (above :: row) entry
  | _, _, _ => []

/-- The row for one more source character. -/
def nextRow (target : List Char) (row : List Nat) (c : Char) : List Nat :=
  match row with
  | [] => []
  | first :: _ => (first + 1) :: extendRow c target row (first + 1)

/-- The edit distance between two character lists. -/
def editDistanceOfChars (source target : List Char) : Nat :=
  (source.foldl (nextRow target) (List.range (target.length + 1))).getLastD 0

/-- The edit distance between two texts, counted in characters. -/
def editDistance (source target : String) : Nat :=
  editDistanceOfChars source.toList target.toList

end SelfTyped
