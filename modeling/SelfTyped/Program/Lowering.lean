/-
SelfTyped.Program.Lowering — what the omitted parts of a source program
stand for.

A node without a line has the line of the construct around it, and a
class without one has line 1.  A class without a parent inherits from
`Object`, one without a file belongs to the file of the program.  A call
without a receiver is a call on `self`, and a missing initializer is
`noExpr`.

`Source.Program.names` lists the names and string literals of a source
program; entering them in a name table gives the number of its distinct
names.
-/
import SelfTyped.Program.Basic
import SelfTyped.Source.Basic
import SelfTyped.Text.Table

namespace SelfTyped

/-! ## Lines and defaults -/

mutual

/-- An expression in a construct that starts at line `around`. -/
def Expr.ofSource (around : Nat) : Source.Expr → Expr
  | ⟨line, form⟩ => ⟨line.getD around, Form.ofSource (line.getD around) form⟩

/-- The parts of an expression that starts at line `line`. -/
def Form.ofSource (line : Nat) : Source.Form → Form
  | .int value => .int value
  | .bool value => .bool value
  | .string value => .string value
  | .object name => .object name
  | .assign name value => .assign name (Expr.ofSource line value)
  | .dispatch none method args =>
    .dispatch ⟨line, .object Known.self⟩ method (itemsOfSource line args)
  | .dispatch (some receiver) method args =>
    .dispatch (Expr.ofSource line receiver) method (itemsOfSource line args)
  | .staticDispatch none type method args =>
    .staticDispatch ⟨line, .object Known.self⟩ type method (itemsOfSource line args)
  | .staticDispatch (some receiver) type method args =>
    .staticDispatch (Expr.ofSource line receiver) type method (itemsOfSource line args)
  | .cond predicate thenArm elseArm =>
    .cond (Expr.ofSource line predicate) (Expr.ofSource line thenArm) (Expr.ofSource line elseArm)
  | .loop condition body => .loop (Expr.ofSource line condition) (Expr.ofSource line body)
  | .case scrutinee branches =>
    .case (Expr.ofSource line scrutinee) (branchesOfSource line branches)
  | .block items => .block (itemsOfSource line items)
  | .letIn name type none body => .letIn name type ⟨line, .noExpr⟩ (Expr.ofSource line body)
  | .letIn name type (some init) body =>
    .letIn name type (Expr.ofSource line init) (Expr.ofSource line body)
  | .binary op left right => .binary op (Expr.ofSource line left) (Expr.ofSource line right)
  | .negate operand => .negate (Expr.ofSource line operand)
  | .complement operand => .complement (Expr.ofSource line operand)
  | .new type => .new type
  | .isVoid operand => .isVoid (Expr.ofSource line operand)
  | .noExpr => .noExpr

/-- Expressions in a construct that starts at line `line`. -/
def itemsOfSource (line : Nat) : List Source.Expr → List Expr
  | [] => []
  | item :: rest => Expr.ofSource line item :: itemsOfSource line rest

/-- Branches of a `case` expression that starts at line `line`. -/
def branchesOfSource (line : Nat) : List Source.Branch → List Branch
  | [] => []
  | ⟨name, type, body, own⟩ :: rest =>
    ⟨own.getD line, name, type, Expr.ofSource (own.getD line) body⟩ :: branchesOfSource line rest

end

/-- A formal parameter of a method that starts at line `line`. -/
def Formal.ofSource (line : Nat) (formal : Source.Formal) : Formal :=
  ⟨formal.line.getD line, formal.name, formal.type⟩

/-- An attribute of a class that starts at line `around`. -/
def Attribute.ofSource (around : Nat) (decl : Source.Attribute) : Attribute :=
  let line := decl.line.getD around
  { line
    name := decl.name
    type := decl.type
    init :=
      match decl.init with
      | some init => Expr.ofSource line init
      | none => ⟨line, .noExpr⟩ }

/-- A method of a class that starts at line `around`. -/
def Method.ofSource (around : Nat) (method : Source.Method) : Method :=
  let line := method.line.getD around
  { line
    name := method.name
    formals := method.formals.map (Formal.ofSource line)
    returnType := method.returnType
    body := Expr.ofSource line method.body }

/-- A feature of a class that starts at line `around`. -/
def Feature.ofSource (around : Nat) : Source.Feature → Feature
  | .attr decl => .attr (Attribute.ofSource around decl)
  | .method decl => .method (Method.ofSource around decl)

namespace Class

/-- The line of a class that states none. -/
def defaultLine : Nat := 1

/-- A class of a program that was read from the file `file`. -/
def ofSource (file : String) (source : Source.Class) : Class :=
  let line := source.line.getD defaultLine
  { line
    name := source.name
    parent := source.parent.getD Known.object
    file := source.file.getD file
    features := source.features.map (Feature.ofSource line) }

end Class

/-- A program that was read from the file `file`. -/
def Program.ofSource (file : String) (source : Source.Program) : Program :=
  ⟨source.classes.map (Class.ofSource file)⟩

/-! ## Names -/

namespace Source

mutual

/-- The names and string literals of an expression. -/
def Expr.names : Expr → List Name
  | ⟨_, form⟩ => form.names

/-- The names and string literals of a kind of expressions with its parts. -/
def Form.names : Form → List Name
  | .int _ => []
  | .bool _ => []
  | .string value => [value]
  | .object name => [name]
  | .assign name value => name :: value.names
  | .dispatch none method args => method :: namesOfItems args
  | .dispatch (some receiver) method args => receiver.names ++ method :: namesOfItems args
  | .staticDispatch none type method args => type :: method :: namesOfItems args
  | .staticDispatch (some receiver) type method args =>
    receiver.names ++ type :: method :: namesOfItems args
  | .cond predicate thenArm elseArm => predicate.names ++ (thenArm.names ++ elseArm.names)
  | .loop condition body => condition.names ++ body.names
  | .case scrutinee branches => scrutinee.names ++ namesOfBranches branches
  | .block items => namesOfItems items
  | .letIn name type none body => name :: type :: body.names
  | .letIn name type (some init) body => name :: type :: (init.names ++ body.names)
  | .binary _ left right => left.names ++ right.names
  | .negate operand => operand.names
  | .complement operand => operand.names
  | .new type => [type]
  | .isVoid operand => operand.names
  | .noExpr => []

/-- The names and string literals of expressions. -/
def namesOfItems : List Expr → List Name
  | [] => []
  | item :: rest => item.names ++ namesOfItems rest

/-- The names and string literals of branches. -/
def namesOfBranches : List Branch → List Name
  | [] => []
  | ⟨name, type, body, _⟩ :: rest => name :: type :: (body.names ++ namesOfBranches rest)

end

/-- The names of a formal parameter. -/
def Formal.names (formal : Formal) : List Name :=
  [formal.name, formal.type]

/-- The names and string literals of a feature. -/
def Feature.names : Feature → List Name
  | .attr a => (a.init.map Expr.names).getD [] ++ [a.name, a.type]
  | .method m => m.formals.flatMap Formal.names ++ [m.name, m.returnType] ++ m.body.names

/-- The names and string literals of a class. -/
def Class.names (c : Class) : List Name :=
  [c.name] ++ c.parent.toList ++ c.file.toList ++ c.features.flatMap Feature.names

/-- The names and string literals of a program. -/
def Program.names (p : Program) : List Name :=
  p.classes.flatMap Class.names

end Source

/-- Enters the names of a source program that was read from the file `file`, and the names that
stand for its omitted parts. -/
def NameTable.internProgram (table : NameTable) (file : String) (source : Source.Program) :
    NameTable :=
  table.internAll (Known.object :: file :: source.names)

end SelfTyped
