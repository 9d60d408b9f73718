/-
SelfTyped.Typing.Moves — what the checker does to its state, move by move.

While the checker goes through an expression it opens and leaves scopes,
binds variables and counts how deep it is.  Here these moves are listed
in the order in which they are made.  They depend on the expression and
its depth alone: whatever is wrong with an expression, the checker makes
the same moves.

Two moves are not always possible.  The class scope is never left, and
there is nothing to come back from at depth 0.
-/
import SelfTyped.Typing.Checker

namespace SelfTyped

/-- A change of the state of the checker. -/
inductive Move where
  | enter
  | leave
  | bind (name type : Name)
  | deeper
  | shallower

/-! ## States -/

namespace CheckState

/-- Makes a move. -/
def move (s : CheckState) : Move → CheckState
  | .enter => s.enter
  | .leave => s.leave
  | .bind name type => s.bind name type
  | .deeper => s.deeper
  | .shallower => s.shallower

/-- Makes moves one after the other. -/
def run (s : CheckState) (moves : List Move) : CheckState :=
  moves.foldl move s

/-- A move is possible. -/
def Permits (s : CheckState) : Move → Prop
  | .leave => s.vars.leave?.isSome = true
  | .shallower => 0 < s.depth
  | _ => True

/-- Moves are possible one after the other. -/
def PermitsAll (s : CheckState) : List Move → Prop
  | [] => True
  | first :: rest => s.Permits first ∧ (s.move first).PermitsAll rest

end CheckState

/-! ## Expressions -/

namespace Move

/-- Binds a variable, unless it is named `self`. -/
def binding (name type : Name) : List Move :=
  if name = Known.self then [] else [.bind name type]

/-- Moves in a scope of their own, with a variable. -/
def inScope (name type : Name) (inside : List Move) : List Move :=
  .enter :: (binding name type ++ (inside ++ [.leave]))

end Move

mutual

/-- The moves that checking an expression takes, given the nesting limit and the depth of the
expression. -/
def Expr.moves (limit depth : Nat) : Expr → List Move
  | ⟨_, form⟩ =>
    if limit ≤ depth then [] else .deeper :: (form.moves limit (depth + 1) ++ [.shallower])

/-- The moves that the parts of an expression take. -/
def Form.moves (limit depth : Nat) : Form → List Move
  | .assign _ operand => operand.moves limit depth
  | .dispatch receiver _ args => receiver.moves limit depth ++ itemMoves limit depth args
  | .staticDispatch receiver _ _ args => receiver.moves limit depth ++ itemMoves limit depth args
  | .cond predicate thenArm elseArm =>
    predicate.moves limit depth ++ (thenArm.moves limit depth ++ elseArm.moves limit depth)
  | .loop condition body => condition.moves limit depth ++ body.moves limit depth
  | .case scrutinee branches => scrutinee.moves limit depth ++ branchMoves limit depth branches
  | .block items => itemMoves limit depth items
  | .letIn name type init body =>
    init.moves limit depth ++ Move.inScope name type (body.moves limit depth)
  | .binary _ left right => left.moves limit depth ++ right.moves limit depth
  | .negate operand => operand.moves limit depth
  | .complement operand => operand.moves limit depth
  | .isVoid operand => operand.moves limit depth
  | .int _ | .bool _ | .string _ | .new _ | .noExpr | .object _ => []

/-- The moves that expressions take, one after the other. -/
def itemMoves (limit depth : Nat) : List Expr → List Move
  | [] => []
  | item :: rest => item.moves limit depth ++ itemMoves limit depth rest

/-- The moves that branches take, one after the other. -/
def branchMoves (limit depth : Nat) : List Branch → List Move
  | [] => []
  | ⟨_, name, type, body⟩ :: rest =>
    Move.inScope name type (body.moves limit depth) ++ branchMoves limit depth rest

end

/-! ## Features -/

/-- Binds formal parameters, given the names of those bound before.  One named `self`, or like an
earlier one, is not bound. -/
def formalMoves (bound : List Name) : List Formal → List Move
  | [] => []
  | f :: rest =>
    if f.name = Known.self ∨ f.name ∈ bound then formalMoves bound rest
    else .bind f.name f.type :: formalMoves (f.name :: bound) rest

namespace Feature

/-- The moves before the initializer or body of a feature. -/
def opening : Feature → List Move
  | .attr _ => []
  | .method m => .enter :: formalMoves [] m.formals

/-- The moves after the initializer or body of a feature. -/
def closing : Feature → List Move
  | .attr _ => []
  | .method _ => [.leave]

/-- The moves that checking a feature takes. -/
def moves (limit depth : Nat) (f : Feature) : List Move :=
  f.opening ++ (f.root.moves limit depth ++ f.closing)

end Feature

/-- The moves that checking the features of a class takes. -/
def Class.moves (limit : Nat) (c : Class) : List Move :=
  c.features.flatMap (Feature.moves limit 0)

end SelfTyped
