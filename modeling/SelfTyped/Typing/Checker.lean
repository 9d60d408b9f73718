/-
SelfTyped.Typing.Checker — the types of all expressions of a class.

The checker goes through an expression once, in the order of
evaluation.  It carries the variables in scope and the number of
expressions around the current one; both are as before when it comes
back from an expression.  What it finds is a tree of types, one for
every node, and a list of errors in the order in which they come up.

At the nesting limit the checker does not go on: the node there is
reported and has type `Object`, and the nodes below it have no type.
-/
import SelfTyped.Typing.Setting

namespace SelfTyped

/-! ## Results -/

/-- An expression with the types found for it and the expressions in it. -/
inductive Typed where
  | reached (source : Expr) (type : Name) (below : List Typed)
  /-- An expression at the nesting limit. -/
  | cut (source : Expr) (type : Name)

mutual

/-- The nodes of an expression in pre-order with their types, if they were reached. -/
def Typed.flatten : Typed → List (Expr × Option Name)
  | .reached source type below => (source, some type) :: flattenAll below
  | .cut source type => (source, some type) :: (source.form.walkBelow 1).map fun (_, e) => (e, none)

/-- The nodes of several expressions, one after the other. -/
def flattenAll : List Typed → List (Expr × Option Name)
  | [] => []
  | node :: rest => node.flatten ++ flattenAll rest

end

/-- What changes while a class is checked: the variables in scope, and the number of expressions
around the current one. -/
structure CheckState where
  vars : Variables
  depth : Nat

/-- The result of checking an expression. -/
structure Outcome where
  type : Name
  node : Typed
  findings : List Finding
  state : CheckState

/-- The result of checking the parts of an expression. -/
structure Inference where
  type : Name
  below : List Typed
  findings : List Finding
  state : CheckState

/-- The result of checking several expressions, one after the other. -/
structure ItemsOutcome where
  types : List Name
  nodes : List Typed
  findings : List Finding
  state : CheckState

/-- The result of checking the branches of a `case` expression: the join of their types, if
there are any. -/
structure BranchesOutcome where
  type : Option Name
  nodes : List Typed
  findings : List Finding
  state : CheckState

/-! ## Steps -/

namespace CheckState

/-- Opens a scope. -/
def enter (s : CheckState) : CheckState :=
  { s with vars := s.vars.enter }

/-- Leaves a scope.  The class scope stays open. -/
def leave (s : CheckState) : CheckState :=
  { s with vars := s.vars.leave?.getD s.vars }

/-- Binds a variable. -/
def bind (s : CheckState) (name type : Name) : CheckState :=
  { s with vars := (s.vars.bind name type).2 }

/-- Opens a scope for a variable.  The name `self` cannot be bound. -/
def enterWith (s : CheckState) (name type : Name) : CheckState :=
  if name = Known.self then s.enter else s.enter.bind name type

/-- Goes into an expression. -/
def deeper (s : CheckState) : CheckState :=
  { s with depth := s.depth + 1 }

/-- Comes back from an expression. -/
def shallower (s : CheckState) : CheckState :=
  { s with depth := s.depth - 1 }

end CheckState

namespace Inference

/-- An expression without parts. -/
def leaf (s : CheckState) (judged : Name × List Finding) : Inference :=
  ⟨judged.1, [], judged.2, s⟩

/-- The result for an expression from that for its parts. -/
def finish (i : Inference) (source : Expr) : Outcome :=
  ⟨i.type, .reached source i.type i.below, i.findings, i.state.shallower⟩

end Inference

namespace Setting

/-- The result for an expression at the nesting limit. -/
def cutOff (g : Setting) (s : CheckState) (source : Expr) : Outcome :=
  ⟨Known.object, .cut source Known.object,
    g.report source.line (.nestingTooDeep g.maxDepth), s⟩

/-- The join of the types of the branches up to one of type `type`. -/
def joinBranch (g : Setting) (joined : Option Name) (type : Name) : Name :=
  match joined with
  | some earlier => g.join earlier type
  | none => type

/-! ## Expressions -/

mutual

/-- Checks an expression. -/
def typeExpr (g : Setting) (s : CheckState) : Expr → Outcome
  | ⟨line, form⟩ =>
    if g.maxDepth ≤ s.depth then g.cutOff s ⟨line, form⟩
    else (g.infer s.deeper line form).finish ⟨line, form⟩

/-- Checks the parts of an expression at line `line`, and the expression by its rule. -/
def infer (g : Setting) (s : CheckState) (line : Nat) : Form → Inference
  | .object name => .leaf s (g.checkObject s.vars line name)
  | .assign name value =>
    let value := g.typeExpr s value
    let judged := g.checkAssign value.state.vars line name value.type
    ⟨judged.1, [value.node], value.findings ++ judged.2, value.state⟩
  | .dispatch receiver method args =>
    let receiver := g.typeExpr s receiver
    let args := g.typeItems receiver.state args
    let judged := g.checkDispatch line method receiver.type args.types
    ⟨judged.1, receiver.node :: args.nodes,
      receiver.findings ++ (args.findings ++ judged.2), args.state⟩
  | .staticDispatch receiver type method args =>
    let receiver := g.typeExpr s receiver
    let args := g.typeItems receiver.state args
    let judged := g.checkStaticDispatch line type method receiver.type args.types
    ⟨judged.1, receiver.node :: args.nodes,
      receiver.findings ++ (args.findings ++ judged.2), args.state⟩
  | .cond predicate thenArm elseArm =>
    let predicate := g.typeExpr s predicate
    let thenArm := g.typeExpr predicate.state thenArm
    let elseArm := g.typeExpr thenArm.state elseArm
    ⟨g.join thenArm.type elseArm.type, [predicate.node, thenArm.node, elseArm.node],
      predicate.findings ++
        (g.require (predicate.type == Known.bool) line .ifPredicateNotBool ++
          (thenArm.findings ++ elseArm.findings)),
      elseArm.state⟩
  | .loop condition body =>
    let condition := g.typeExpr s condition
    let body := g.typeExpr condition.state body
    ⟨Known.object, [condition.node, body.node],
      condition.findings ++
        (g.require (condition.type == Known.bool) line .loopConditionNotBool ++ body.findings),
      body.state⟩
  | .case scrutinee branches =>
    let scrutinee := g.typeExpr s scrutinee
    let branches := g.typeBranches scrutinee.state [] none branches
    ⟨branches.type.getD Known.object, scrutinee.node :: branches.nodes,
      scrutinee.findings ++ branches.findings, branches.state⟩
  | .block items =>
    let items := g.typeItems s items
    ⟨items.types.getLastD Known.object, items.nodes, items.findings, items.state⟩
  | .letIn name type init body =>
    let missing := init.isMissing
    let init := g.typeExpr s init
    let body := g.typeExpr (init.state.enterWith name type) body
    ⟨body.type, [init.node, body.node],
      init.findings ++
        (g.checkLet line name type (if missing then none else some init.type) ++ body.findings),
      body.state.leave⟩
  | .binary op left right =>
    let left := g.typeExpr s left
    let right := g.typeExpr left.state right
    let judged := g.checkBinary line op left.type right.type
    ⟨judged.1, [left.node, right.node], left.findings ++ (right.findings ++ judged.2),
      right.state⟩
  | .negate operand =>
    let operand := g.typeExpr s operand
    ⟨Known.int, [operand.node],
      operand.findings ++
        g.require (operand.type == Known.int) line (.negateNotInt operand.type),
      operand.state⟩
  | .complement operand =>
    let operand := g.typeExpr s operand
    ⟨Known.bool, [operand.node],
      operand.findings ++
        g.require (operand.type == Known.bool) line (.complementNotBool operand.type),
      operand.state⟩
  | .int _ => .leaf s (Known.int, [])
  | .bool _ => .leaf s (Known.bool, [])
  | .string _ => .leaf s (Known.string, [])
  | .new type => .leaf s (g.checkNew line type)
  | .isVoid operand =>
    let operand := g.typeExpr s operand
    ⟨Known.bool, [operand.node], operand.findings, operand.state⟩
  | .noExpr => .leaf s (Known.noType, [])

/-- Checks expressions one after the other. -/
def typeItems (g : Setting) (s : CheckState) : List Expr → ItemsOutcome
  | [] => ⟨[], [], [], s⟩
  | item :: rest =>
    let item := g.typeExpr s item
    let rest := g.typeItems item.state rest
    ⟨item.type :: rest.types, item.node :: rest.nodes, item.findings ++ rest.findings,
      rest.state⟩

/-- Checks branches one after the other, given the types that earlier branches declare and the
join of the types of their bodies. -/
def typeBranches (g : Setting) (s : CheckState) (earlier : List Name) (joined : Option Name) :
    List Branch → BranchesOutcome
  | [] => ⟨joined, [], [], s⟩
  | ⟨line, name, type, body⟩ :: rest =>
    let body := g.typeExpr (s.enterWith name type) body
    let rest := g.typeBranches body.state.leave (type :: earlier)
      (some (g.joinBranch joined body.type)) rest
    ⟨rest.type, body.node :: rest.nodes,
      g.checkBranch line earlier name type ++ (body.findings ++ rest.findings), rest.state⟩

end

end Setting

/-! ## Features -/

/-- The result of checking a feature. -/
structure FeatureOutcome where
  node : Typed
  findings : List Finding
  state : CheckState

/-- A feature with the types found for its initializer or body. -/
structure TypedFeature where
  feature : Feature
  node : Typed

/-- The result of checking a class. -/
structure ClassOutcome where
  features : List TypedFeature
  findings : List Finding
  state : CheckState

namespace Setting

/-- Checks an attribute. -/
def typeAttribute (g : Setting) (s : CheckState) (a : Attribute) : FeatureOutcome :=
  let init := g.typeExpr s a.init
  ⟨init.node,
    g.require (a.name != Known.self) a.line .selfAttribute ++
      (g.require (g.isDeclarable a.type) a.line (.undefinedAttributeType a.name a.type) ++
        (init.findings ++
          g.require (a.init.isMissing || g.conforms init.type a.type) a.init.line
            (.attributeInitMismatch a.name init.type a.type))),
    init.state⟩

/-- What is wrong with the type of a formal parameter. -/
def checkFormalType (g : Setting) (f : Formal) : List Finding :=
  if f.type = Known.selfType then g.report f.line (.selfTypeFormal f.name)
  else g.require (g.hierarchy.isDefined f.type) f.line (.undefinedFormalType f.name f.type)

/-- Binds a formal parameter.  One named `self`, or like an earlier one, is not bound. -/
def bindFormal (g : Setting) (state : CheckState × List Finding) (f : Formal) :
    CheckState × List Finding :=
  let (s, findings) := state
  if f.name = Known.self then (s, findings ++ g.report f.line .selfFormal)
  else if s.vars.boundHere f.name then
    (s, findings ++ (g.checkFormalType f ++ g.report f.line (.duplicateFormal f.name)))
  else (s.bind f.name f.type, findings ++ g.checkFormalType f)

/-- Checks a method. -/
def typeMethod (g : Setting) (s : CheckState) (m : Method) : FeatureOutcome :=
  let (inside, formalFindings) := m.formals.foldl g.bindFormal (s.enter, [])
  let body := g.typeExpr inside m.body
  ⟨body.node,
    formalFindings ++
      (g.require (g.isDeclarable m.returnType) m.line (.undefinedReturnType m.name m.returnType) ++
        (body.findings ++
          g.require (g.conforms body.type m.returnType) m.body.line
            (.returnTypeMismatch m.name body.type m.returnType))),
    body.state.leave⟩

/-- Checks a feature. -/
def typeFeature (g : Setting) (s : CheckState) : Feature → FeatureOutcome
  | .attr a => g.typeAttribute s a
  | .method m => g.typeMethod s m

/-- Checks features one after the other. -/
def typeFeatures (g : Setting) (s : CheckState) : List Feature → ClassOutcome
  | [] => ⟨[], [], s⟩
  | feature :: rest =>
    let first := g.typeFeature s feature
    let rest := g.typeFeatures first.state rest
    ⟨⟨feature, first.node⟩ :: rest.features, first.findings ++ rest.findings,
      rest.state⟩

/-- Checks the features of a class in its class scope. -/
def typeClass (g : Setting) (features : List Feature) : ClassOutcome :=
  let (vars, scopeFindings) := Variables.ofClass g.hierarchy g.current
  let outcome := g.typeFeatures ⟨vars, 0⟩ features
  { outcome with findings := scopeFindings ++ outcome.findings }

end Setting

end SelfTyped
