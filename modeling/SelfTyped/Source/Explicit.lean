/-
SelfTyped.Source.Explicit — source programs with nothing left out but lines.

A source program has a receiver for every call, an initializer for every
attribute and `let`, and a parent and a file for every class, once what
stands for an omitted part is written down in its place.  Lines go the
other way: every line is left out.  Source programs with one explicit form
say the same.
-/
import SelfTyped.Source.Basic

namespace SelfTyped

namespace Source

mutual

/-- The explicit form of an expression. -/
def Expr.explicit : Expr → Expr
  | ⟨_, form⟩ => ⟨none, form.explicit⟩

/-- The parts of an expression in their explicit forms. -/
def Form.explicit : Form → Form
  | .int value => .int value
  | .bool value => .bool value
  | .string value => .string value
  | .object name => .object name
  | .assign name value => .assign name value.explicit
  | .dispatch none method args =>
    .dispatch (some ⟨none, .object Known.self⟩) method (explicitItems args)
  | .dispatch (some receiver) method args =>
    .dispatch (some receiver.explicit) method (explicitItems args)
  | .staticDispatch none type method args =>
    .staticDispatch (some ⟨none, .object Known.self⟩) type method (explicitItems args)
  | .staticDispatch (some receiver) type method args =>
    .staticDispatch (some receiver.explicit) type method (explicitItems args)
  | .cond predicate thenArm elseArm => .cond predicate.explicit thenArm.explicit elseArm.explicit
  | .loop condition body => .loop condition.explicit body.explicit
  | .case scrutinee branches => .case scrutinee.explicit (explicitBranches branches)
  | .block items => .block (explicitItems items)
  | .letIn name type none body => .letIn name type (some ⟨none, .noExpr⟩) body.explicit
  | .letIn name type (some init) body => .letIn name type (some init.explicit) body.explicit
  | .binary op left right => .binary op left.explicit right.explicit
  | .negate operand => .negate operand.explicit
  | .complement operand => .complement operand.explicit
  | .new type => .new type
  | .isVoid operand => .isVoid operand.explicit
  | .noExpr => .noExpr

/-- Expressions in their explicit forms. -/
def explicitItems : List Expr → List Expr
  | [] => []
  | item :: rest => item.explicit :: explicitItems rest

/-- Branches in their explicit forms. -/
def explicitBranches : List Branch → List Branch
  | [] => []
  | ⟨name, type, body, _⟩ :: rest => ⟨name, type, body.explicit, none⟩ :: explicitBranches rest

end

/-- The explicit form of a formal parameter. -/
def Formal.explicit (formal : Formal) : Formal :=
  { formal with line := none }

/-- The explicit form of an attribute. -/
def Attribute.explicit (decl : Attribute) : Attribute :=
  { decl with
    init := some ((decl.init.map Expr.explicit).getD ⟨none, .noExpr⟩)
    line := none }

/-- The explicit form of a method. -/
def Method.explicit (method : Method) : Method :=
  { method with
    formals := method.formals.map Formal.explicit
    body := method.body.explicit
    line := none }

/-- The explicit form of a feature. -/
def Feature.explicit : Feature → Feature
  | .attr decl => .attr decl.explicit
  | .method decl => .method decl.explicit

/-- The explicit form of a class, where the program was read from the file `file`. -/
def Class.explicit (file : String) (c : Class) : Class :=
  { name := c.name
    parent := some (c.parent.getD Known.object)
    file := some (c.file.getD file)
    line := none
    features := c.features.map Feature.explicit }

/-- The explicit form of a program that was read from the file `file`. -/
def Program.explicit (file : String) (p : Program) : Program :=
  ⟨p.classes.map (Class.explicit file)⟩

end Source

end SelfTyped
