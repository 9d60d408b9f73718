/-
SelfTyped.Scope.Stack — scopes as a plain stack of maps.

Here a scope is nothing but the values of its names, and a lookup goes
through the scopes from the innermost outwards.  Sequences of operations
can be run on such a stack (`ScopeStack.run`) and on scopes with an index
(`Scoped.run`).

Leaving a scope takes its names out of the index one after the other, in
an order that nobody chose.  `Scoped.leaveInOrder?` leaves it to the
caller, and has no result if the index does not say of some name that the
scope being left binds it innermost.  `Scoped.Runs` relates a sequence of
operations to all its outcomes, whatever the orders.
-/
import SelfTyped.Scope.Basic

namespace SelfTyped

variable {α : Type}

/-- What can be done to scopes. -/
inductive ScopeOperation (α : Type) where
  | enter
  | leave
  | bind (name : Name) (value : α)
  /-- Operations between entering a scope and leaving one. -/
  | withScope (body : List (ScopeOperation α))

/-! ## Plain stacks -/

/-- The scopes opened above the root, innermost first, and the root. -/
structure ScopeStack (α : Type) where
  inner : List (Name → Option α)
  root : Name → Option α

namespace ScopeStack

/-- Only the root scope, and nothing bound. -/
def empty : ScopeStack α :=
  ⟨[], fun _ => none⟩

/-- All scopes, innermost first. -/
def scopes (t : ScopeStack α) : List (Name → Option α) :=
  t.inner ++ [t.root]

/-- The innermost scope. -/
def current (t : ScopeStack α) : Name → Option α :=
  t.inner.headD t.root

/-- The value of a name in the innermost scope that binds it. -/
def lookup (t : ScopeStack α) (name : Name) : Option α :=
  t.scopes.findSome? fun scope => scope name

/-- Opens a scope. -/
def enter (t : ScopeStack α) : ScopeStack α :=
  { t with inner := (fun _ => none) :: t.inner }

/-- Leaves the innermost scope.  Nothing happens if only the root scope is left. -/
def leave (t : ScopeStack α) : ScopeStack α :=
  { t with inner := t.inner.tail }

/-- A scope in which one name has a new value. -/
def assign (scope : Name → Option α) (name : Name) (value : α) : Name → Option α :=
  fun other => if name = other then some value else scope other

/-- Binds a name in the innermost scope. -/
def bind (t : ScopeStack α) (name : Name) (value : α) : ScopeStack α :=
  match t.inner with
  | [] => { t with root := assign t.root name value }
  | scope :: outer => { t with inner := assign scope name value :: outer }

mutual

/-- Performs an operation. -/
def step (t : ScopeStack α) : ScopeOperation α → ScopeStack α
  | .enter => t.enter
  | .leave => t.leave
  | .bind name value => t.bind name value
  | .withScope body => (t.enter.run body).leave

/-- Performs operations one after the other. -/
def run (t : ScopeStack α) : List (ScopeOperation α) → ScopeStack α
  | [] => t
  | operation :: rest => (t.step operation).run rest

end

end ScopeStack

/-! ## Scopes with an index -/

namespace Scoped

/-- Takes the scope `number` out of the index for a name.  It has to be the innermost scope that
binds the name. -/
def dropNumber? (number : Nat) (index : Assoc (List Nat)) (name : Name) :
    Option (Assoc (List Nat)) :=
  if (index.get? name).bind List.head? = some number then some (dropBinding index name) else none

/-- Leaves the innermost scope, taking the names in `keys` out of the index one by one. -/
def leaveInOrder? (s : Scoped α) (keys : List Name) : Option (Scoped α) :=
  (keys.foldlM (dropNumber? s.depth) s.index).map fun index => ⟨s.inner.tail, s.root, index⟩

/-- Operations lead from some scopes to others. -/
inductive Runs : Scoped α → List (ScopeOperation α) → Scoped α → Prop
  | done {s : Scoped α} : Runs s [] s
  | enter {s s' : Scoped α} {rest : List (ScopeOperation α)} (after : Runs s.enter rest s') :
      Runs s (.enter :: rest) s'
  /-- The names of a scope are taken out of the index in any order. -/
  | leave {s left s' : Scoped α} {keys : List Name} {rest : List (ScopeOperation α)}
      (inside : s.inner ≠ []) (order : keys.Perm s.current.names)
      (leaves : s.leaveInOrder? keys = some left) (after : Runs left rest s') :
      Runs s (.leave :: rest) s'
  /-- The root scope is not left. -/
  | stay {s s' : Scoped α} {rest : List (ScopeOperation α)} (root : s.inner = [])
      (after : Runs s rest s') : Runs s (.leave :: rest) s'
  | bind {s s' : Scoped α} {name : Name} {value : α} {rest : List (ScopeOperation α)}
      (after : Runs (s.bind name value).2 rest s') : Runs s (.bind name value :: rest) s'
  | withScope {s inside left s' : Scoped α} {body rest : List (ScopeOperation α)}
      (within : Runs s.enter body inside) (leaves : Runs inside [.leave] left)
      (after : Runs left rest s') : Runs s (.withScope body :: rest) s'

mutual

/-- Performs an operation. -/
def step (s : Scoped α) : ScopeOperation α → Scoped α
  | .enter => s.enter
  | .leave => s.leave?.getD s
  | .bind name value => (s.bind name value).2
  | .withScope body => (s.withScope fun inside => ((), inside.run body)).2

/-- Performs operations one after the other. -/
def run (s : Scoped α) : List (ScopeOperation α) → Scoped α
  | [] => s
  | operation :: rest => (s.step operation).run rest

end

end Scoped

end SelfTyped
