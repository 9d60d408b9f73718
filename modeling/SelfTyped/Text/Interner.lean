/-
SelfTyped.Text.Interner — interning text that lies in memory.

A text is given as a slice: the address at which it starts, and what it
says.  A slice table keeps, for every text, the slice that was the first
to be entered with it, and hands that slice out as the symbol.  Two
symbols are then one if they start at one address, and nothing else of
them is looked at; they are ordered by what they say.

Numbered entries (`SelfTyped.Text.Table`) and slices are two ways to tell
symbols apart.  `Interner` is what both have in common: the operations of
a table, and with them what a sequence of calls is answered.
-/
import SelfTyped.Text.Table

namespace SelfTyped

/-! ## Slices -/

/-- A text that lies in memory. -/
structure Slice where
  start : Nat
  text : Name
  deriving DecidableEq, Repr

namespace Slice

/-- Slices are taken for one symbol when they start at one address. -/
def same (a b : Slice) : Bool :=
  a.start == b.start

/-- Slices are ordered by their texts. -/
def order (a b : Slice) : Ordering :=
  compare a.text b.text

/-- Different texts start at different addresses.  One text may lie at several. -/
def Apart (slices : List Slice) : Prop :=
  ∀ a ∈ slices, ∀ b ∈ slices, a.start = b.start → a.text = b.text

instance (slices : List Slice) : Decidable (Apart slices) :=
  inferInstanceAs (Decidable (∀ a ∈ slices, ∀ b ∈ slices, a.start = b.start → a.text = b.text))

end Slice

/-- The slices that were the first with their texts, oldest first. -/
structure SliceTable where
  entries : List Slice
  deriving DecidableEq, Repr

namespace SliceTable

/-- The slice that a text was entered with. -/
def lookup? (table : SliceTable) (text : Name) : Option Slice :=
  table.entries.find? (·.text == text)

/-- The slice that a text was entered with, which is the given one if the text is new. -/
def intern (table : SliceTable) (slice : Slice) : Slice × SliceTable :=
  match table.lookup? slice.text with
  | some kept => (kept, table)
  | none => (slice, ⟨table.entries ++ [slice]⟩)

/-- A new table, where `self` and `SELF_TYPE` lie at the two addresses. -/
def initial (self selfType : Nat) : SliceTable :=
  (((⟨[]⟩ : SliceTable).intern ⟨self, Known.self⟩).2.intern ⟨selfType, Known.selfType⟩).2

/-- The texts that were entered, oldest first. -/
def texts (table : SliceTable) : List Name :=
  table.entries.map Slice.text

/-- The number of distinct texts. -/
def size (table : SliceTable) : Nat :=
  table.entries.length

/-- The symbol of `self`. -/
def self? (table : SliceTable) : Option Slice :=
  table.lookup? Known.self

/-- The symbol of `SELF_TYPE`. -/
def selfType? (table : SliceTable) : Option Slice :=
  table.lookup? Known.selfType

end SliceTable

/-! ## Calls -/

/-- A call of a table. -/
inductive TableCall where
  | intern (slice : Slice)
  | lookup (text : Name)
  deriving DecidableEq, Repr

namespace TableCall

/-- The text that a call asks for. -/
def text : TableCall → Name
  | intern slice => slice.text
  | lookup text => text

/-- The slice that a call offers. -/
def slice? : TableCall → Option Slice
  | intern slice => some slice
  | lookup _ => none

/-- The slices that a sequence of calls offers. -/
def slices (calls : List TableCall) : List Slice :=
  calls.filterMap slice?

/-- The texts that a sequence of calls interns. -/
def interned (calls : List TableCall) : List Name :=
  (slices calls).map Slice.text

end TableCall

/-- A table with states `τ` that hands out symbols `σ`. -/
structure Interner (τ σ : Type) where
  intern : τ → Slice → σ × τ
  lookup? : τ → Name → Option σ
  size : τ → Nat
  self? : τ → Option σ
  selfType? : τ → Option σ
  text : σ → Name
  same : σ → σ → Bool
  order : σ → σ → Ordering

/-- Tables with numbered entries. -/
def NameTable.interner : Interner NameTable Symbol where
  intern table slice := table.intern slice.text
  lookup? := NameTable.lookup?
  size := NameTable.size
  self? := NameTable.self?
  selfType? := NameTable.selfType?
  text := Symbol.text
  same a b := a == b
  order := Symbol.order

/-- Tables that keep slices. -/
def SliceTable.interner : Interner SliceTable Slice where
  intern := SliceTable.intern
  lookup? := SliceTable.lookup?
  size := SliceTable.size
  self? := SliceTable.self?
  selfType? := SliceTable.selfType?
  text := Slice.text
  same := Slice.same
  order := Slice.order

namespace Interner

variable {τ σ : Type} (ops : Interner τ σ)

/-- The answer to a call, and the table after it. -/
def answer (table : τ) : TableCall → Option σ × τ
  | .intern slice => (some (ops.intern table slice).1, (ops.intern table slice).2)
  | .lookup text => (ops.lookup? table text, table)

/-- The table after a sequence of calls. -/
def after (table : τ) (calls : List TableCall) : τ :=
  calls.foldl (fun t call => (ops.answer t call).2) table

/-- The calls of a sequence with their answers. -/
def answers (table : τ) : List TableCall → List (TableCall × Option σ)
  | [] => []
  | call :: rest =>
    (call, (ops.answer table call).1) :: answers (ops.answer table call).2 rest

/-- The symbols that a sequence of calls is handed. -/
def symbols (table : τ) (calls : List TableCall) : List σ :=
  (ops.answers table calls).filterMap (·.2)

/-- The calls of a sequence, with the texts of their answers. -/
def transcript (table : τ) (calls : List TableCall) : List (TableCall × Option Name) :=
  (ops.answers table calls).map fun answered => (answered.1, answered.2.map ops.text)

end Interner

end SelfTyped
