/-
SelfTyped.Text.Table — interned names.

A table hands out one symbol per text.  A symbol carries the number of
its table entry and its text; symbols are compared for equality by
number and ordered by text.  Within one table both agree, because an
entry is only made for a text that has none and no entry ever changes.
-/
import SelfTyped.Text.Name

namespace SelfTyped

/-- A name that was entered in a table. -/
structure Symbol where
  entry : Nat
  text : Name
  deriving Repr

namespace Symbol

/-- Symbols are equal when they stand for the same entry. -/
instance : BEq Symbol where
  beq a b := a.entry == b.entry

/-- Symbols are ordered by their texts. -/
def order (a b : Symbol) : Ordering :=
  compare a.text b.text

end Symbol

/-- The distinct texts interned so far, oldest first. -/
structure NameTable where
  entries : List Name
  deriving Repr, DecidableEq

namespace NameTable

/-- The table before anything is entered: it knows the two names that every program may use
undeclared. -/
def initial : NameTable :=
  ⟨[Known.self, Known.selfType]⟩

/-- The symbol of a text that was entered before. -/
def lookup? (table : NameTable) (text : Name) : Option Symbol :=
  (table.entries.idxOf? text).map fun entry => ⟨entry, text⟩

/-- The symbol of a text, entering it first if it is new. -/
def intern (table : NameTable) (text : Name) : Symbol × NameTable :=
  match table.lookup? text with
  | some symbol => (symbol, table)
  | none => (⟨table.entries.length, text⟩, ⟨table.entries ++ [text]⟩)

/-- Enters every text of a list, in order. -/
def internAll (table : NameTable) (texts : List Name) : NameTable :=
  texts.foldl (fun t text => (t.intern text).2) table

/-- The number of distinct texts. -/
def size (table : NameTable) : Nat :=
  table.entries.length

/-- Whether nothing was entered. -/
def isEmpty (table : NameTable) : Bool :=
  table.entries.isEmpty

/-- The symbol of `self`. -/
def self? (table : NameTable) : Option Symbol :=
  table.lookup? Known.self

/-- The symbol of `SELF_TYPE`. -/
def selfType? (table : NameTable) : Option Symbol :=
  table.lookup? Known.selfType

end NameTable

end SelfTyped
