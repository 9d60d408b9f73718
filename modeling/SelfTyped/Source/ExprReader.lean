/-
SelfTyped.Source.ExprReader — reading expressions.

An expression is an object.  Its key `line` is read when it is met; of
the other keys the first that names a kind of expression decides, and
its value is read as that kind needs it.  All other keys are ignored.
Expressions inside an expression are read from complete JSON values, so
nothing of an expression is looked at before the text of its object is
known to be well-formed.
-/
import SelfTyped.Source.Record

namespace SelfTyped

namespace Source

/-- The kinds of expressions, as named by the keys of an expression. -/
inductive Kind where
  | int
  | bool
  | string
  | object
  | assign
  | dispatch
  | staticDispatch
  | cond
  | loop
  | case
  | block
  | letIn
  | binary (op : Operator)
  | negate
  | complement
  | new
  | isVoid
  | noExpr
  deriving DecidableEq, Repr

namespace Kind

/-- The key and the title of an operator. -/
def operatorNames : Operator → String × String
  | .plus => ("plus", "Plus")
  | .minus => ("sub", "Sub")
  | .times => ("mul", "Mul")
  | .divide => ("divide", "Divide")
  | .less => ("lt", "Lt")
  | .lessOrEqual => ("leq", "Leq")
  | .equal => ("eq", "Eq")

/-- The key of a kind and its title in a mismatch. -/
def names : Kind → String × String
  | .int => ("int", "Int")
  | .bool => ("bool", "Bool")
  | .string => ("string", "String")
  | .object => ("object", "Object")
  | .assign => ("assign", "Assign")
  | .dispatch => ("dispatch", "Dispatch")
  | .staticDispatch => ("static_dispatch", "StaticDispatch")
  | .cond => ("cond", "Cond")
  | .loop => ("loop", "Loop")
  | .case => ("case", "Case")
  | .block => ("block", "Block")
  | .letIn => ("let", "Let")
  | .binary op => operatorNames op
  | .negate => ("neg", "Neg")
  | .complement => ("not", "Not")
  | .new => ("new", "New")
  | .isVoid => ("isvoid", "IsVoid")
  | .noExpr => ("no_expr", "NoExpr")

/-- The key that names a kind. -/
def key (kind : Kind) : String :=
  kind.names.1

/-- A kind as it is named in a mismatch. -/
def title (layout : String) (kind : Kind) : String :=
  layout ++ " variant RawExprKind::" ++ kind.names.2

/-- All kinds. -/
def all : List Kind :=
  [.int, .bool, .string, .object, .assign, .dispatch, .staticDispatch, .cond, .loop, .case,
    .block, .letIn, .binary .plus, .binary .minus, .binary .times, .binary .divide,
    .binary .less, .binary .lessOrEqual, .binary .equal, .negate, .complement, .new, .isVoid,
    .noExpr]

/-- The kind that a key names. -/
def ofKey? (key : String) : Option Kind :=
  all.find? fun kind => kind.key == key

end Kind

section Forms

variable (readExpr : Json → Except Fault Expr)

/-- The fields of a branch. -/
def branchRecord : Record Json :=
  ⟨"struct RawCaseBranch",
    [.text "name", .text "type", .expr readExpr "body", .lineOrNull "line"]⟩

/-- Reads a branch of a `case` expression. -/
def readBranch (node : Json) : Except Fault Branch := do
  let filled ← (branchRecord readExpr).read node
  return {
    name := ← filled.require Value.text? "name"
    type := ← filled.require Value.text? "type"
    body := ← filled.require Value.expr? "body"
    line := filled.optional Value.line? "line" }

/-- Reads the fields of a kind whose value is a record. -/
def readFields (kind : Kind) (fields : List (Field Json)) (node : Json) : Except Fault Filled :=
  Record.fill ⟨kind.title "struct", fields⟩ .structVariant node

/-- Reads an assignment. -/
def readAssign (node : Json) : Except Fault Form := do
  let filled ← readFields .assign [.text "name", .expr readExpr "value"] node
  return .assign (← filled.require Value.text? "name") (← filled.require Value.expr? "value")

/-- Reads a dispatch. -/
def readDispatch (node : Json) : Except Fault Form := do
  let filled ← readFields .dispatch
    [.exprOrNull readExpr "receiver", .text "method", .items .exprs readExpr "args"] node
  return .dispatch (filled.optional Value.expr? "receiver")
    (← filled.require Value.text? "method") ((filled.optional Value.exprs? "args").getD [])

/-- Reads a static dispatch. -/
def readStaticDispatch (node : Json) : Except Fault Form := do
  let filled ← readFields .staticDispatch
    [.exprOrNull readExpr "receiver", .text "type", .text "method",
      .items .exprs readExpr "args"] node
  return .staticDispatch (filled.optional Value.expr? "receiver")
    (← filled.require Value.text? "type") (← filled.require Value.text? "method")
    ((filled.optional Value.exprs? "args").getD [])

/-- Reads a conditional. -/
def readCond (node : Json) : Except Fault Form := do
  let filled ← readFields .cond
    [.expr readExpr "pred", .expr readExpr "then", .expr readExpr "else"] node
  return .cond (← filled.require Value.expr? "pred") (← filled.require Value.expr? "then")
    (← filled.require Value.expr? "else")

/-- Reads a loop. -/
def readLoop (node : Json) : Except Fault Form := do
  let filled ← readFields .loop [.expr readExpr "pred", .expr readExpr "body"] node
  return .loop (← filled.require Value.expr? "pred") (← filled.require Value.expr? "body")

/-- Reads a `case` expression. -/
def readCase (node : Json) : Except Fault Form := do
  let filled ← readFields .case
    [.expr readExpr "expr", .items .branches (readBranch readExpr) "branches"] node
  return .case (← filled.require Value.expr? "expr") (← filled.require Value.branches? "branches")

/-- Reads a `let` expression. -/
def readLet (node : Json) : Except Fault Form := do
  let filled ← readFields .letIn
    [.text "name", .text "type", .exprOrNull readExpr "init", .expr readExpr "body"] node
  return .letIn (← filled.require Value.text? "name") (← filled.require Value.text? "type")
    (filled.optional Value.expr? "init") (← filled.require Value.expr? "body")

/-- The operands of a binary operator: an array of two expressions. -/
def operandRecord (op : Operator) : Record Json :=
  ⟨(Kind.binary op).title "tuple", [.expr readExpr "left", .expr readExpr "right"]⟩

/-- Reads the operands of a binary operator. -/
def readBinary (op : Operator) (node : Json) : Except Fault Form := do
  match ← Node.shape node with
  | .sequence items => do
    let filled ← (operandRecord readExpr op).fillItems items
    return .binary op (← filled.require Value.expr? "left") (← filled.require Value.expr? "right")
  | shape => shape.unexpected .tupleVariant

/-- Reads the value of a missing expression: `null` or an empty object. -/
def readNoExpr (node : Json) : Except Fault Form := do
  match ← Node.shape node with
  | .scalar .null => return .noExpr
  | .mapping [] => return .noExpr
  | shape => shape.unexpected .unit

/-- Reads the value of the key that names the kind of an expression. -/
def readForm : Kind → Json → Except Fault Form
  | .int, node => .int <$> readLiteral node
  | .bool, node => .bool <$> readBool node
  | .string, node => .string <$> readText node
  | .object, node => .object <$> readText node
  | .assign, node => readAssign readExpr node
  | .dispatch, node => readDispatch readExpr node
  | .staticDispatch, node => readStaticDispatch readExpr node
  | .cond, node => readCond readExpr node
  | .loop, node => readLoop readExpr node
  | .case, node => readCase readExpr node
  | .block, node => .block <$> readItems readExpr node
  | .letIn, node => readLet readExpr node
  | .binary op, node => readBinary readExpr op node
  | .negate, node => .negate <$> readExpr node
  | .complement, node => .complement <$> readExpr node
  | .new, node => .new <$> readText node
  | .isVoid, node => .isVoid <$> readExpr node
  | .noExpr, node => readNoExpr node

/-- The first entry whose key names a kind, with that kind. -/
def kindEntry? (entries : List (String × Json)) : Option (Kind × Json) :=
  entries.findSome? fun (key, value) => (Kind.ofKey? key).map (·, value)

end Forms

/-- Goes through the entries of an expression: reads `line` and keeps the other entries. -/
def splitEntries {δ : Type} [Node δ] :
    List (Except Fault (String × δ)) → Option (Option Nat) → List (String × Json) →
      Except Fault (Option Nat × List (String × Json))
  | [], line, others => .ok (line.join, others)
  | entry :: rest, line, others => do
    let (key, node) ← entry
    if key == "line" then
      if line.isSome then .error (.mismatch (.duplicateField key))
      else do
        let value ← readOptional readLine node
        splitEntries rest (some value) others
    else do
      let value ← Node.buffer node
      splitEntries rest line (others ++ [(key, value)])

/-- Reads an expression, given how expressions inside it are read. -/
def readExprWith {δ : Type} [Node δ] (inner : Json → Except Fault Expr) (node : δ) :
    Except Fault Expr := do
  match ← Node.shape node with
  | .mapping entries => do
    let (line, others) ← splitEntries entries none []
    match kindEntry? others with
    | some (kind, value) => return ⟨line, ← readForm inner kind value⟩
    | none => .error (.mismatch .noKind)
  | shape => shape.unexpected (.record "struct RawExpr")

/-- Reads an expression from a JSON value of which at most `fuel` levels are looked at. -/
def readJsonExpr : Nat → Json → Except Fault Expr
  | 0, _ => .error (.mismatch .noKind)
  | fuel + 1, node => readExprWith (readJsonExpr fuel) node

/-- Reads an expression inside an expression.  Each level of it is an object of its own. -/
def readInnerExpr (node : Json) : Except Fault Expr :=
  readJsonExpr (node.depth + 1) node

/-- Reads an expression that is not inside another one. -/
def readExpr (node : Json.Draft) : Except Fault Expr :=
  readExprWith readInnerExpr node

end Source

end SelfTyped
