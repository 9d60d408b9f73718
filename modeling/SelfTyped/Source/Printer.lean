/-
SelfTyped.Source.Printer — source programs as texts.

A record is an object with its fields as entries, in their order.  A field
that is left out has no entry, a list is there even if it is empty.  An
expression is an object with two entries: its kind, and its line if it has
one.
-/
import SelfTyped.Json.Printer
import SelfTyped.Source.ExprReader

namespace SelfTyped

namespace Source

/-- An object with the entries that are there. -/
def record (cells : List (String × Option Json)) : Json :=
  .object (cells.filterMap fun cell => cell.2.map (cell.1, ·))

/-- A line number, if there is one. -/
def lineToJson (line : Option Nat) : Option Json :=
  line.map fun (number : Nat) => .number (.integer number)

/-- The kind of an expression. -/
def Form.kind : Form → Kind
  | .int _ => .int
  | .bool _ => .bool
  | .string _ => .string
  | .object _ => .object
  | .assign .. => .assign
  | .dispatch .. => .dispatch
  | .staticDispatch .. => .staticDispatch
  | .cond .. => .cond
  | .loop .. => .loop
  | .case .. => .case
  | .block _ => .block
  | .letIn .. => .letIn
  | .binary op _ _ => .binary op
  | .negate _ => .negate
  | .complement _ => .complement
  | .new _ => .new
  | .isVoid _ => .isVoid
  | .noExpr => .noExpr

mutual

/-- An expression as a JSON value. -/
def Expr.toJson : Expr → Json
  | ⟨line, form⟩ => record [(form.kind.key, some form.payload), ("line", lineToJson line)]

/-- What stands under the key of the kind of an expression. -/
def Form.payload : Form → Json
  | .int value => .number (.integer value)
  | .bool value => .bool value
  | .string value => .string value
  | .object name => .string name
  | .assign name value => record [("name", some (.string name)), ("value", some value.toJson)]
  | .dispatch receiver method args =>
    record [("receiver", optionalToJson receiver), ("method", some (.string method)),
      ("args", some (.array (itemsToJson args)))]
  | .staticDispatch receiver type method args =>
    record [("receiver", optionalToJson receiver), ("type", some (.string type)),
      ("method", some (.string method)), ("args", some (.array (itemsToJson args)))]
  | .cond predicate thenArm elseArm =>
    record [("pred", some predicate.toJson), ("then", some thenArm.toJson),
      ("else", some elseArm.toJson)]
  | .loop condition body => record [("pred", some condition.toJson), ("body", some body.toJson)]
  | .case scrutinee branches =>
    record [("expr", some scrutinee.toJson), ("branches", some (.array (branchesToJson branches)))]
  | .block items => .array (itemsToJson items)
  | .letIn name type init body =>
    record [("name", some (.string name)), ("type", some (.string type)),
      ("init", optionalToJson init), ("body", some body.toJson)]
  | .binary _ left right => .array [left.toJson, right.toJson]
  | .negate operand => operand.toJson
  | .complement operand => operand.toJson
  | .new type => .string type
  | .isVoid operand => operand.toJson
  | .noExpr => .null

/-- An expression that may be left out. -/
def optionalToJson : Option Expr → Option Json
  | none => none
  | some e => some e.toJson

/-- Expressions one after the other. -/
def itemsToJson : List Expr → List Json
  | [] => []
  | item :: rest => item.toJson :: itemsToJson rest

/-- Branches of a `case` expression. -/
def branchesToJson : List Branch → List Json
  | [] => []
  | ⟨name, type, body, line⟩ :: rest =>
    record [("name", some (.string name)), ("type", some (.string type)),
      ("body", some body.toJson), ("line", lineToJson line)] :: branchesToJson rest

end

/-- A formal parameter as a JSON value. -/
def Formal.toJson (formal : Formal) : Json :=
  record [("name", some (.string formal.name)), ("type", some (.string formal.type)),
    ("line", lineToJson formal.line)]

/-- An attribute as a JSON value. -/
def Attribute.toJson (decl : Attribute) : Json :=
  record [("name", some (.string decl.name)), ("type", some (.string decl.type)),
    ("init", decl.init.map Expr.toJson), ("line", lineToJson decl.line)]

/-- A method as a JSON value. -/
def Method.toJson (decl : Method) : Json :=
  record [("name", some (.string decl.name)),
    ("formals", some (.array (decl.formals.map Formal.toJson))),
    ("return_type", some (.string decl.returnType)), ("body", some decl.body.toJson),
    ("line", lineToJson decl.line)]

/-- A feature as a JSON value. -/
def Feature.toJson : Feature → Json
  | .attr decl => record [("attribute", some decl.toJson)]
  | .method decl => record [("method", some decl.toJson)]

/-- A class as a JSON value. -/
def Class.toJson (c : Class) : Json :=
  record [("name", some (.string c.name)), ("parent", c.parent.map .string),
    ("filename", c.file.map .string), ("line", lineToJson c.line),
    ("features", some (.array (c.features.map Feature.toJson)))]

namespace Program

/-- A program as a JSON value. -/
def toJson (p : Program) : Json :=
  record [("classes", some (.array (p.classes.map Class.toJson)))]

/-- A program as a text. -/
def toText (p : Program) : String :=
  p.toJson.toText

end Program

end Source

end SelfTyped
