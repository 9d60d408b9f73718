/-
SelfTyped.Interned.Basic — programs whose names are symbols.

A program in memory holds no texts: in the place of every name, file and
string literal stands the symbol that a table handed out for it.  Two such
programs are compared without looking at a text, and symbols are equal if
they are one entry of the table.

A program with names (`SelfTyped.Program.Basic`) becomes one with symbols
once every text has its symbol (`ofNames`).
-/
import SelfTyped.Program.Basic
import SelfTyped.Program.Sameness
import SelfTyped.Text.Table

namespace SelfTyped

namespace Interned

mutual

/-- An expression and the line it starts on. -/
structure Expr where
  line : Nat
  form : Form

/-- The kinds of expressions. -/
inductive Form where
  | assign (name : Symbol) (value : Expr)
  | dispatch (receiver : Expr) (method : Symbol) (args : List Expr)
  | staticDispatch (receiver : Expr) (type : Symbol) (method : Symbol) (args : List Expr)
  | cond (predicate thenArm elseArm : Expr)
  | loop (condition body : Expr)
  | case (scrutinee : Expr) (branches : List Branch)
  | block (items : List Expr)
  | letIn (name type : Symbol) (init body : Expr)
  | binary (op : Operator) (left right : Expr)
  | negate (operand : Expr)
  | complement (operand : Expr)
  | int (value : Int)
  | bool (value : Bool)
  | string (value : Symbol)
  | new (type : Symbol)
  | isVoid (operand : Expr)
  | noExpr
  | object (name : Symbol)

/-- A branch of a `case` expression. -/
structure Branch where
  line : Nat
  name : Symbol
  type : Symbol
  body : Expr

end

/-- A formal parameter. -/
structure Formal where
  line : Nat
  name : Symbol
  type : Symbol

/-- An attribute with its initializer. -/
structure Attribute where
  line : Nat
  name : Symbol
  type : Symbol
  init : Expr

/-- A method. -/
structure Method where
  line : Nat
  name : Symbol
  formals : List Formal
  returnType : Symbol
  body : Expr

/-- A feature of a class. -/
inductive Feature where
  | attr (decl : Attribute)
  | method (decl : Method)

/-- A class declaration. -/
structure Class where
  line : Nat
  name : Symbol
  parent : Symbol
  file : Symbol
  features : List Feature

/-- A program: its classes in the order of declaration. -/
structure Program where
  classes : List Class

/-! ## Comparison -/

mutual

/-- Whether two expressions agree up to lines. -/
def Expr.same : Expr → Expr → Bool
  | ⟨_, form⟩, ⟨_, other⟩ => form.same other

/-- Whether two expressions, lines of their roots apart, agree up to lines. -/
def Form.same : Form → Form → Bool
  | .assign n v, .assign n' v' => n == n' && v.same v'
  | .dispatch r m as, .dispatch r' m' as' => r.same r' && m == m' && sameItems as as'
  | .staticDispatch r t m as, .staticDispatch r' t' m' as' =>
    r.same r' && t == t' && m == m' && sameItems as as'
  | .cond p a b, .cond p' a' b' => p.same p' && a.same a' && b.same b'
  | .loop c b, .loop c' b' => c.same c' && b.same b'
  | .case s bs, .case s' bs' => s.same s' && sameBranches bs bs'
  | .block es, .block es' => sameItems es es'
  | .letIn n t i b, .letIn n' t' i' b' => n == n' && t == t' && i.same i' && b.same b'
  | .binary op l r, .binary op' l' r' => op == op' && l.same l' && r.same r'
  | .negate e, .negate e' => e.same e'
  | .complement e, .complement e' => e.same e'
  | .int v, .int v' => v == v'
  | .bool v, .bool v' => v == v'
  | .string v, .string v' => v == v'
  | .new t, .new t' => t == t'
  | .isVoid e, .isVoid e' => e.same e'
  | .noExpr, .noExpr => true
  | .object n, .object n' => n == n'
  | _, _ => false

/-- Whether two lists of expressions agree up to lines. -/
def sameItems : List Expr → List Expr → Bool
  | [], [] => true
  | e :: es, e' :: es' => e.same e' && sameItems es es'
  | _, _ => false

/-- Whether two lists of branches agree up to lines. -/
def sameBranches : List Branch → List Branch → Bool
  | [], [] => true
  | ⟨_, n, t, e⟩ :: bs, ⟨_, n', t', e'⟩ :: bs' =>
    n == n' && t == t' && e.same e' && sameBranches bs bs'
  | _, _ => false

end

/-- Whether two formal parameters agree up to lines. -/
def Formal.same (a b : Formal) : Bool :=
  a.name == b.name && a.type == b.type

/-- Whether two features agree up to lines. -/
def Feature.same : Feature → Feature → Bool
  | .attr a, .attr b => a.name == b.name && a.type == b.type && a.init.same b.init
  | .method a, .method b =>
    a.name == b.name && sameLists Formal.same a.formals b.formals &&
      a.returnType == b.returnType && a.body.same b.body
  | _, _ => false

/-- Whether two classes agree up to lines. -/
def Class.same (a b : Class) : Bool :=
  a.name == b.name && a.parent == b.parent && a.file == b.file &&
    sameLists Feature.same a.features b.features

/-- Whether two programs agree up to lines. -/
def Program.same (a b : Program) : Bool :=
  sameLists Class.same a.classes b.classes

/-! ## Symbols for names -/

variable (symbol : Name → Symbol)

mutual

/-- An expression with symbols for its names. -/
def Expr.ofNames : SelfTyped.Expr → Expr
  | ⟨line, form⟩ => ⟨line, Form.ofNames form⟩

/-- The parts of an expression with symbols for their names. -/
def Form.ofNames : SelfTyped.Form → Form
  | .assign name value => .assign (symbol name) (Expr.ofNames value)
  | .dispatch receiver method args =>
    .dispatch (Expr.ofNames receiver) (symbol method) (itemsOfNames args)
  | .staticDispatch receiver type method args =>
    .staticDispatch (Expr.ofNames receiver) (symbol type) (symbol method) (itemsOfNames args)
  | .cond predicate thenArm elseArm =>
    .cond (Expr.ofNames predicate) (Expr.ofNames thenArm) (Expr.ofNames elseArm)
  | .loop condition body => .loop (Expr.ofNames condition) (Expr.ofNames body)
  | .case scrutinee branches => .case (Expr.ofNames scrutinee) (branchesOfNames branches)
  | .block items => .block (itemsOfNames items)
  | .letIn name type init body =>
    .letIn (symbol name) (symbol type) (Expr.ofNames init) (Expr.ofNames body)
  | .binary op left right => .binary op (Expr.ofNames left) (Expr.ofNames right)
  | .negate operand => .negate (Expr.ofNames operand)
  | .complement operand => .complement (Expr.ofNames operand)
  | .int value => .int value
  | .bool value => .bool value
  | .string value => .string (symbol value)
  | .new type => .new (symbol type)
  | .isVoid operand => .isVoid (Expr.ofNames operand)
  | .noExpr => .noExpr
  | .object name => .object (symbol name)

/-- Expressions with symbols for their names. -/
def itemsOfNames : List SelfTyped.Expr → List Expr
  | [] => []
  | item :: rest => Expr.ofNames item :: itemsOfNames rest

/-- Branches with symbols for their names. -/
def branchesOfNames : List SelfTyped.Branch → List Branch
  | [] => []
  | ⟨line, name, type, body⟩ :: rest =>
    ⟨line, symbol name, symbol type, Expr.ofNames body⟩ :: branchesOfNames rest

end

/-- A formal parameter with symbols for its names. -/
def Formal.ofNames (formal : SelfTyped.Formal) : Formal :=
  ⟨formal.line, symbol formal.name, symbol formal.type⟩

/-- An attribute with symbols for its names. -/
def Attribute.ofNames (decl : SelfTyped.Attribute) : Attribute :=
  ⟨decl.line, symbol decl.name, symbol decl.type, Expr.ofNames symbol decl.init⟩

/-- A method with symbols for its names. -/
def Method.ofNames (method : SelfTyped.Method) : Method :=
  { line := method.line
    name := symbol method.name
    formals := method.formals.map (Formal.ofNames symbol)
    returnType := symbol method.returnType
    body := Expr.ofNames symbol method.body }

/-- A feature with symbols for its names. -/
def Feature.ofNames : SelfTyped.Feature → Feature
  | .attr decl => .attr (Attribute.ofNames symbol decl)
  | .method decl => .method (Method.ofNames symbol decl)

/-- A class with symbols for its names. -/
def Class.ofNames (c : SelfTyped.Class) : Class :=
  { line := c.line
    name := symbol c.name
    parent := symbol c.parent
    file := symbol c.file
    features := c.features.map (Feature.ofNames symbol) }

/-- A program with symbols for its names. -/
def Program.ofNames (p : SelfTyped.Program) : Program :=
  ⟨p.classes.map (Class.ofNames symbol)⟩

end Interned

end SelfTyped
