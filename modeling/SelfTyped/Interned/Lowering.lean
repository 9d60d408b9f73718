/-
SelfTyped.Interned.Lowering — lowering a source program into a table.

A source program is lowered in one pass, and every text that comes up is
entered in the table right then: the symbol it is handed goes into the
program, and the table is passed on.  What the omitted parts stand for is
entered first, once: `Object` and the file of the program.  The symbol of
`self` is only looked up, since every table knows it.

The parts of an expression are gone through in the order of its fields,
of an attribute the initializer first, and of a method the formal
parameters first.
-/
import SelfTyped.Interned.Basic
import SelfTyped.Program.Lowering

namespace SelfTyped

namespace Interned

/-- A step that may enter texts in a table. -/
abbrev Entering (α : Type) : Type :=
  StateM NameTable α

/-- The symbols for what is left out of a source program. -/
structure Defaults where
  object : Symbol
  self : Symbol
  file : Symbol

/-- Enters a text. -/
def enter (text : Name) : Entering Symbol :=
  fun table => table.intern text

section

variable (known : Defaults)

mutual

/-- Lowers an expression in a construct that starts at line `around`. -/
def Expr.lower (around : Nat) : Source.Expr → Entering Expr
  | ⟨line, form⟩ => do
    let form ← Form.lower (line.getD around) form
    return ⟨line.getD around, form⟩

/-- Lowers the parts of an expression that starts at line `line`. -/
def Form.lower (line : Nat) : Source.Form → Entering Form
  | .int value => return .int value
  | .bool value => return .bool value
  | .string value => do
    let value ← enter value
    return .string value
  | .object name => do
    let name ← enter name
    return .object name
  | .assign name value => do
    let name ← enter name
    let value ← Expr.lower line value
    return .assign name value
  | .dispatch none method args => do
    let method ← enter method
    let args ← lowerItems line args
    return .dispatch ⟨line, .object known.self⟩ method args
  | .dispatch (some receiver) method args => do
    let receiver ← Expr.lower line receiver
    let method ← enter method
    let args ← lowerItems line args
    return .dispatch receiver method args
  | .staticDispatch none type method args => do
    let type ← enter type
    let method ← enter method
    let args ← lowerItems line args
    return .staticDispatch ⟨line, .object known.self⟩ type method args
  | .staticDispatch (some receiver) type method args => do
    let receiver ← Expr.lower line receiver
    let type ← enter type
    let method ← enter method
    let args ← lowerItems line args
    return .staticDispatch receiver type method args
  | .cond predicate thenArm elseArm => do
    let predicate ← Expr.lower line predicate
    let thenArm ← Expr.lower line thenArm
    let elseArm ← Expr.lower line elseArm
    return .cond predicate thenArm elseArm
  | .loop condition body => do
    let condition ← Expr.lower line condition
    let body ← Expr.lower line body
    return .loop condition body
  | .case scrutinee branches => do
    let scrutinee ← Expr.lower line scrutinee
    let branches ← lowerBranches line branches
    return .case scrutinee branches
  | .block items => do
    let items ← lowerItems line items
    return .block items
  | .letIn name type none body => do
    let name ← enter name
    let type ← enter type
    let body ← Expr.lower line body
    return .letIn name type ⟨line, .noExpr⟩ body
  | .letIn name type (some init) body => do
    let name ← enter name
    let type ← enter type
    let init ← Expr.lower line init
    let body ← Expr.lower line body
    return .letIn name type init body
  | .binary op left right => do
    let left ← Expr.lower line left
    let right ← Expr.lower line right
    return .binary op left right
  | .negate operand => do
    let operand ← Expr.lower line operand
    return .negate operand
  | .complement operand => do
    let operand ← Expr.lower line operand
    return .complement operand
  | .new type => do
    let type ← enter type
    return .new type
  | .isVoid operand => do
    let operand ← Expr.lower line operand
    return .isVoid operand
  | .noExpr => return .noExpr

/-- Lowers expressions in a construct that starts at line `line`. -/
def lowerItems (line : Nat) : List Source.Expr → Entering (List Expr)
  | [] => return []
  | item :: rest => do
    let item ← Expr.lower line item
    let rest ← lowerItems line rest
    return item :: rest

/-- Lowers the branches of a `case` expression that starts at line `line`. -/
def lowerBranches (line : Nat) : List Source.Branch → Entering (List Branch)
  | [] => return []
  | ⟨name, type, body, own⟩ :: rest => do
    let name ← enter name
    let type ← enter type
    let body ← Expr.lower (own.getD line) body
    let rest ← lowerBranches line rest
    return ⟨own.getD line, name, type, body⟩ :: rest

end

/-- Lowers a formal parameter of a method that starts at line `line`. -/
def Formal.lower (line : Nat) (formal : Source.Formal) : Entering Formal := do
  let name ← enter formal.name
  let type ← enter formal.type
  return ⟨formal.line.getD line, name, type⟩

/-- Lowers the initializer of an attribute that starts at line `line`. -/
def lowerInit (line : Nat) : Option Source.Expr → Entering Expr
  | some init => Expr.lower known line init
  | none => return ⟨line, .noExpr⟩

/-- Lowers an attribute of a class that starts at line `around`. -/
def Attribute.lower (around : Nat) (decl : Source.Attribute) : Entering Attribute := do
  let init ← lowerInit known (decl.line.getD around) decl.init
  let name ← enter decl.name
  let type ← enter decl.type
  return ⟨decl.line.getD around, name, type, init⟩

/-- Lowers a method of a class that starts at line `around`. -/
def Method.lower (around : Nat) (method : Source.Method) : Entering Method := do
  let formals ← method.formals.mapM (Formal.lower (method.line.getD around))
  let name ← enter method.name
  let returnType ← enter method.returnType
  let body ← Expr.lower known (method.line.getD around) method.body
  return ⟨method.line.getD around, name, formals, returnType, body⟩

/-- Lowers a feature of a class that starts at line `around`. -/
def Feature.lower (around : Nat) : Source.Feature → Entering Feature
  | .attr decl => return .attr (← Attribute.lower known around decl)
  | .method decl => return .method (← Method.lower known around decl)

/-- Enters a text that may be left out. -/
def enterOr (default : Symbol) : Option Name → Entering Symbol
  | some text => enter text
  | none => return default

/-- Lowers a class. -/
def Class.lower (source : Source.Class) : Entering Class := do
  let name ← enter source.name
  let parent ← enterOr known.object source.parent
  let file ← enterOr known.file source.file
  let features ← source.features.mapM (Feature.lower known (source.line.getD Class.defaultLine))
  return ⟨source.line.getD Class.defaultLine, name, parent, file, features⟩

end

/-- Lowers a program that was read from the file `file`. -/
def Program.lower? (file : String) (source : Source.Program) (table : NameTable) :
    Option (Program × NameTable) := do
  let (object, table) := table.intern Known.object
  let self ← table.self?
  let (file, table) := table.intern file
  let (classes, table) := (source.classes.mapM (Class.lower ⟨object, self, file⟩)).run table
  return (⟨classes⟩, table)

end Interned

end SelfTyped
