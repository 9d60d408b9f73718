/-
SelfTyped.Json.Reordering — texts that differ in the order of entries.

The entries of a JSON object have no order of their own.  Two drafts are
`Reordered` if they are alike but for the order of entries, in their objects
and in the objects inside them.  Where a key is used twice, order does matter;
`distinctKeys` says that it nowhere is.
-/
import SelfTyped.Json.Draft

namespace SelfTyped

namespace Json

namespace Draft

/-- Two drafts that differ in the order of the entries of their objects at most. -/
inductive Reordered : Draft → Draft → Prop
  | same (draft : Draft) : Reordered draft draft
  | array {pairs : List (Draft × Draft)} {closed : Bool}
    (each : ∀ pair ∈ pairs, Reordered pair.1 pair.2) :
    Reordered (.array (pairs.map Prod.fst) closed) (.array (pairs.map Prod.snd) closed)
  | object {cells : List (Option String × Draft × Draft)}
    {entries : List (Option String × Draft)} {closed : Bool}
    (each : ∀ cell ∈ cells, Reordered cell.2.1 cell.2.2)
    (order : (cells.map fun cell => (cell.1, cell.2.2)).Perm entries) :
    Reordered (.object (cells.map fun cell => (cell.1, cell.2.1)) closed) (.object entries closed)

/-- The keys of some entries that can be read. -/
def keys (entries : List (Option String × Draft)) : List String :=
  entries.filterMap Prod.fst

mutual

/-- No object in a draft has a key twice. -/
def distinctKeys : Draft → Bool
  | .array items _ => itemsDistinct items
  | .object entries _ => decide (keys entries).Nodup && entriesDistinct entries
  | _ => true

/-- No object in the items has a key twice. -/
def itemsDistinct : List Draft → Bool
  | [] => true
  | item :: rest => item.distinctKeys && itemsDistinct rest

/-- No object in the values of the entries has a key twice. -/
def entriesDistinct : List (Option String × Draft) → Bool
  | [] => true
  | (_, value) :: rest => value.distinctKeys && entriesDistinct rest

end

end Draft

end Json

end SelfTyped
