/-
SelfTyped.Source.Basic — programs as they are written down.

A source program is the tree that a parser of the language hands over.
Much of it may be left out: the lines of nodes, the parent and the file
of a class, initializers, and the receiver of a call on `self`.  What an
omitted part stands for is decided in `SelfTyped.Program.Lowering`.
-/
import SelfTyped.Text.Name
import SelfTyped.Program.Operator

namespace SelfTyped

namespace Source

mutual

/-- An expression and the line it starts on. -/
structure Expr where
  line : Option Nat
  form : Form

/-- The kinds of expressions. -/
inductive Form where
  | int (value : Int)
  | bool (value : Bool)
  | string (value : String)
  | object (name : Name)
  | assign (name : Name) (value : Expr)
  | dispatch (receiver : Option Expr) (method : Name) (args : List Expr)
  | staticDispatch (receiver : Option Expr) (type : Name) (method : Name) (args : List Expr)
  | cond (predicate thenArm elseArm : Expr)
  | loop (condition body : Expr)
  | case (scrutinee : Expr) (branches : List Branch)
  | block (items : List Expr)
  | letIn (name type : Name) (init : Option Expr) (body : Expr)
  | binary (op : Operator) (left right : Expr)
  | negate (operand : Expr)
  | complement (operand : Expr)
  | new (type : Name)
  | isVoid (operand : Expr)
  | noExpr

/-- A branch of a `case` expression. -/
structure Branch where
  name : Name
  type : Name
  body : Expr
  line : Option Nat

end

/-- A formal parameter. -/
structure Formal where
  name : Name
  type : Name
  line : Option Nat

/-- An attribute, with its initializer if it has one. -/
structure Attribute where
  name : Name
  type : Name
  init : Option Expr
  line : Option Nat

/-- A method. -/
structure Method where
  name : Name
  formals : List Formal
  returnType : Name
  body : Expr
  line : Option Nat

/-- A feature of a class. -/
inductive Feature where
  | attr (decl : Attribute)
  | method (decl : Method)

/-- A class declaration. -/
structure Class where
  name : Name
  parent : Option Name
  file : Option String
  line : Option Nat
  features : List Feature

/-- A program: its classes in the order of declaration. -/
structure Program where
  classes : List Class

end Source

end SelfTyped
