/-
SelfTyped.Typing.Annotations — the table of types that a run fills in.

A node is known by its address: the number of its class, that of the
feature, and the numbers of the parts that lead to it from the root of the
feature.  A run annotates each node that it comes to with a type, an
expression after its parts.  `annotate?` refuses to annotate a node twice.
-/
import SelfTyped.Typing.Analysis

namespace SelfTyped

/-- Numbers that lead to a node. -/
abbrev Address := List Nat

/-- A node and the type found for it. -/
structure Annotation where
  source : Expr
  type : Name

/-- Annotations in the order in which they are made, each with the address of the node. -/
abbrev Annotations := List (Address × Annotation)

/-! ## Annotations -/

namespace Annotations

/-- Annotations seen from one level above, where their common root has a number. -/
def under (number : Nat) (annotations : Annotations) : Annotations :=
  annotations.map fun (address, a) => (number :: address, a)

/-- The annotations for the items of a list, which are numbered from `first` on. -/
def ofItems {α : Type} (ofItem : α → Annotations) (first : Nat) : List α → Annotations
  | [] => []
  | item :: rest => under first (ofItem item) ++ ofItems ofItem (first + 1) rest

end Annotations

mutual

/-- The annotations made while an expression is checked. -/
def Typed.annotations : Typed → Annotations
  | .reached source type below => annotationsBelow 0 below ++ [([], ⟨source, type⟩)]
  | .cut source type => [([], ⟨source, type⟩)]

/-- The annotations made while parts, numbered from `first` on, are checked. -/
def annotationsBelow (first : Nat) : List Typed → Annotations
  | [] => []
  | node :: rest => node.annotations.under first ++ annotationsBelow (first + 1) rest

end

namespace Analysis

/-- The annotations made by a run. -/
def annotations (a : Analysis) : Annotations :=
  .ofItems (fun c => .ofItems (fun f => f.node.annotations) 0 c.features) 0 a.classes

end Analysis

/-! ## The table -/

/-- The types of the nodes that were annotated. -/
structure TypeTable where
  entries : List (Address × Name)
  deriving DecidableEq, Repr

namespace TypeTable

/-- No node is annotated. -/
def empty : TypeTable :=
  ⟨[]⟩

/-- The type of a node, if it was annotated. -/
def type? (table : TypeTable) (address : Address) : Option Name :=
  (table.entries.find? fun entry => entry.1 == address).map (·.2)

/-- Annotates a node, unless it has a type already. -/
def annotate? (table : TypeTable) (address : Address) (type : Name) : Option TypeTable :=
  if (table.type? address).isSome then none else some ⟨table.entries ++ [(address, type)]⟩

/-- Makes annotations one after the other, unless one of them is of a node that has a type. -/
def annotateAll? (table : TypeTable) : Annotations → Option TypeTable
  | [] => some table
  | (address, a) :: rest => do
    let table ← table.annotate? address a.type
    table.annotateAll? rest

/-- The number of nodes that were annotated. -/
def size (table : TypeTable) : Nat :=
  table.entries.length

end TypeTable

namespace Analysis

/-- The table that a run fills in, unless it annotates a node twice. -/
def table? (a : Analysis) : Option TypeTable :=
  TypeTable.empty.annotateAll? a.annotations

end Analysis

end SelfTyped
