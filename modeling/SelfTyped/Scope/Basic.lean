/-
SelfTyped.Scope.Basic — lexically scoped bindings.

Scopes are opened and left in a nested fashion; the root scope is never
left.  An inner binding of a name shadows the outer ones.  Beside the
scopes themselves an index keeps, for every name that is bound
anywhere, the numbers of the scopes that bind it, innermost first, so
that a lookup goes straight to the innermost binding.
-/
import SelfTyped.Scope.Assoc

namespace SelfTyped

/-- Nested scopes.  The root scope has number 0, a scope opened later has the next number. -/
structure Scoped (α : Type) where
  /-- The scopes opened above the root, innermost first. -/
  inner : List (Assoc α)
  root : Assoc α
  /-- The numbers of the scopes that bind a name, innermost first. -/
  index : Assoc (List Nat)
  deriving Repr

namespace Scoped

variable {α : Type}

/-- Only the root scope, and nothing bound. -/
def empty : Scoped α :=
  ⟨[], [], []⟩

/-- The number of scopes opened above the root. -/
def depth (s : Scoped α) : Nat :=
  s.inner.length

/-- The innermost scope. -/
def current (s : Scoped α) : Assoc α :=
  s.inner.headD s.root

/-- The scope with a given number. -/
def scope? (s : Scoped α) (number : Nat) : Option (Assoc α) :=
  (s.inner ++ [s.root]).reverse[number]?

/-- Opens a scope. -/
def enter (s : Scoped α) : Scoped α :=
  { s with inner := [] :: s.inner }

/-- Notes in the index that the scope `number` now binds `name` innermost. -/
def noteBinding (index : Assoc (List Nat)) (number : Nat) (name : Name) : Assoc (List Nat) :=
  index.insert name (number :: (index.get? name).getD [])

/-- Takes the innermost binding of `name` out of the index. -/
def dropBinding (index : Assoc (List Nat)) (name : Name) : Assoc (List Nat) :=
  match index.get? name with
  | some (_ :: next :: rest) => index.insert name (next :: rest)
  | _ => index.erase name

/-- Replaces the innermost scope. -/
def setCurrent (s : Scoped α) (scope : Assoc α) : Scoped α :=
  match s.inner with
  | [] => { s with root := scope }
  | _ :: outer => { s with inner := scope :: outer }

/-- Binds a name in the innermost scope.  Also gives the value it had there before. -/
def bind (s : Scoped α) (name : Name) (value : α) : Option α × Scoped α :=
  let previous := s.current.get? name
  let index := if previous.isSome then s.index else noteBinding s.index s.depth name
  (previous, { s.setCurrent (s.current.insert name value) with index })

/-- Leaves the innermost scope with all its bindings; the root scope cannot be left. -/
def leave? (s : Scoped α) : Option (Scoped α) :=
  match s.inner with
  | [] => none
  | scope :: outer => some ⟨outer, s.root, scope.names.foldl dropBinding s.index⟩

/-- Runs `body` in a scope of its own, which is left again afterwards. -/
def withScope {β : Type} (s : Scoped α) (body : Scoped α → β × Scoped α) : β × Scoped α :=
  let (result, inside) := body s.enter
  (result, inside.leave?.getD inside)

/-- The innermost value of a name. -/
def lookup (s : Scoped α) (name : Name) : Option α := do
  let numbers ← s.index.get? name
  let number ← numbers.head?
  let scope ← s.scope? number
  scope.get? name

/-- Whether the innermost scope binds a name. -/
def boundHere (s : Scoped α) (name : Name) : Bool :=
  (s.current.get? name).isSome

/-- The names that are bound in some scope. -/
def visible (s : Scoped α) : List Name :=
  s.index.names

end Scoped

end SelfTyped
