/-
SelfTyped.Program.Basic — programs with every part in place.

Every node of a program has a line, and nothing is left out: a missing
initializer is the expression `noExpr`, a call without a receiver has
`self` as its receiver.  The nodes of an expression are visited in
pre-order (`Expr.walk`), each with its depth below the root.
-/
import SelfTyped.Text.Name
import SelfTyped.Program.Operator

namespace SelfTyped

mutual

/-- An expression and the line it starts on. -/
structure Expr where
  line : Nat
  form : Form

/-- The kinds of expressions. -/
inductive Form where
  | assign (name : Name) (value : Expr)
  | dispatch (receiver : Expr) (method : Name) (args : List Expr)
  | staticDispatch (receiver : Expr) (type : Name) (method : Name) (args : List Expr)
  | cond (predicate thenArm elseArm : Expr)
  | loop (condition body : Expr)
  | case (scrutinee : Expr) (branches : List Branch)
  | block (items : List Expr)
  | letIn (name type : Name) (init body : Expr)
  | binary (op : Operator) (left right : Expr)
  | negate (operand : Expr)
  | complement (operand : Expr)
  | int (value : Int)
  | bool (value : Bool)
  | string (value : String)
  | new (type : Name)
  | isVoid (operand : Expr)
  | noExpr
  | object (name : Name)

/-- A branch of a `case` expression. -/
structure Branch where
  line : Nat
  name : Name
  type : Name
  body : Expr

end

/-- A formal parameter. -/
structure Formal where
  line : Nat
  name : Name
  type : Name

/-- An attribute with its initializer. -/
structure Attribute where
  line : Nat
  name : Name
  type : Name
  init : Expr

/-- A method. -/
structure Method where
  line : Nat
  name : Name
  formals : List Formal
  returnType : Name
  body : Expr

/-- A feature of a class. -/
inductive Feature where
  | attr (decl : Attribute)
  | method (decl : Method)

/-- A class declaration. -/
structure Class where
  line : Nat
  name : Name
  parent : Name
  file : String
  features : List Feature

/-- A program: its classes in the order of declaration. -/
structure Program where
  classes : List Class

namespace Form

/-- The subexpressions of an expression, in the order of evaluation. -/
def children : Form → List Expr
  | .assign _ value => [value]
  | .dispatch receiver _ args => receiver :: args
  | .staticDispatch receiver _ _ args => receiver :: args
  | .cond predicate thenArm elseArm => [predicate, thenArm, elseArm]
  | .loop condition body => [condition, body]
  | .case scrutinee branches => scrutinee :: branches.map Branch.body
  | .block items => items
  | .letIn _ _ init body => [init, body]
  | .binary _ left right => [left, right]
  | .negate operand => [operand]
  | .complement operand => [operand]
  | .isVoid operand => [operand]
  | _ => []

/-- The name of a kind of expressions. -/
def kindName : Form → String
  | .assign .. => "Assign"
  | .dispatch .. => "Dispatch"
  | .staticDispatch .. => "StaticDispatch"
  | .cond .. => "Cond"
  | .loop .. => "Loop"
  | .case .. => "Case"
  | .block .. => "Block"
  | .letIn .. => "Let"
  | .binary .. => "Binary"
  | .negate .. => "Neg"
  | .complement .. => "Not"
  | .int .. => "IntConst"
  | .bool .. => "BoolConst"
  | .string .. => "StringConst"
  | .new .. => "New"
  | .isVoid .. => "IsVoid"
  | .noExpr => "NoExpr"
  | .object .. => "Object"

end Form

mutual

/-- The nodes of an expression in pre-order, each with its depth. -/
def Expr.walkFrom (depth : Nat) : Expr → List (Nat × Expr)
  | ⟨line, form⟩ => (depth, ⟨line, form⟩) :: form.walkBelow (depth + 1)

/-- The nodes of the subexpressions of an expression. -/
def Form.walkBelow (depth : Nat) : Form → List (Nat × Expr)
  | .assign _ value => value.walkFrom depth
  | .dispatch receiver _ args => receiver.walkFrom depth ++ walkItems depth args
  | .staticDispatch receiver _ _ args => receiver.walkFrom depth ++ walkItems depth args
  | .cond predicate thenArm elseArm =>
    predicate.walkFrom depth ++ (thenArm.walkFrom depth ++ elseArm.walkFrom depth)
  | .loop condition body => condition.walkFrom depth ++ body.walkFrom depth
  | .case scrutinee branches => scrutinee.walkFrom depth ++ walkBranches depth branches
  | .block items => walkItems depth items
  | .letIn _ _ init body => init.walkFrom depth ++ body.walkFrom depth
  | .binary _ left right => left.walkFrom depth ++ right.walkFrom depth
  | .negate operand => operand.walkFrom depth
  | .complement operand => operand.walkFrom depth
  | .isVoid operand => operand.walkFrom depth
  | .int _ | .bool _ | .string _ | .new _ | .noExpr | .object _ => []

/-- The nodes of several expressions, one after the other. -/
def walkItems (depth : Nat) : List Expr → List (Nat × Expr)
  | [] => []
  | item :: rest => item.walkFrom depth ++ walkItems depth rest

/-- The nodes of the bodies of branches, one after the other. -/
def walkBranches (depth : Nat) : List Branch → List (Nat × Expr)
  | [] => []
  | ⟨_, _, _, body⟩ :: rest => body.walkFrom depth ++ walkBranches depth rest

end

namespace Expr

/-- The nodes of an expression in pre-order, the root having depth 0. -/
def walk (e : Expr) : List (Nat × Expr) :=
  e.walkFrom 0

/-- Whether an expression is the placeholder for a missing one. -/
def isMissing (e : Expr) : Bool :=
  match e.form with
  | .noExpr => true
  | _ => false

theorem isMissing_eq_false_iff {e : Expr} : e.isMissing = false ↔ e.form ≠ .noExpr := by
  obtain ⟨line, form⟩ := e
  cases form <;> simp [isMissing]

end Expr

namespace Feature

/-- The line a feature starts on. -/
def line : Feature → Nat
  | .attr a => a.line
  | .method m => m.line

/-- The name of a feature. -/
def name : Feature → Name
  | .attr a => a.name
  | .method m => m.name

/-- The initializer of an attribute or the body of a method. -/
def root : Feature → Expr
  | .attr a => a.init
  | .method m => m.body

end Feature

namespace Class

/-- The name of a class and the line it is declared on. -/
def located (c : Class) : String :=
  c.name ++ " at line " ++ toString c.line

/-- The attributes of a class, in the order of declaration. -/
def attributes (c : Class) : List Attribute :=
  c.features.filterMap fun
    | .attr a => some a
    | .method _ => none

/-- The methods of a class, in the order of declaration. -/
def methods (c : Class) : List Method :=
  c.features.filterMap fun
    | .method m => some m
    | .attr _ => none

end Class

end SelfTyped
