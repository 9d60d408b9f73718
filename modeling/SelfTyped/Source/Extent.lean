/-
SelfTyped.Source.Extent — how large the parts of a source program are.

A source program is stored in words of 64 bits: a literal is a signed
word, a line an unsigned one.  A program whose numbers are words is `InRange`.
How deeply expressions are inside one another is bounded by `NestsWithin`,
and by `LevelsWithin` with the outermost one counted.
Statements about all expressions pass from the expressions directly inside
one to it (`Expr.children_induction`).
-/
import SelfTyped.Source.Node
import SelfTyped.Source.Basic

namespace SelfTyped

namespace Source

/-! ## Expressions -/

namespace Form

/-- The expressions directly inside an expression. -/
def children : Form → List Expr
  | .assign _ value => [value]
  | .dispatch receiver _ args => receiver.toList ++ args
  | .staticDispatch receiver _ _ args => receiver.toList ++ args
  | .cond predicate thenArm elseArm => [predicate, thenArm, elseArm]
  | .loop condition body => [condition, body]
  | .case scrutinee branches => scrutinee :: branches.map Branch.body
  | .block items => items
  | .letIn _ _ init body => init.toList ++ [body]
  | .binary _ left right => [left, right]
  | .negate operand => [operand]
  | .complement operand => [operand]
  | .isVoid operand => [operand]
  | .int _ | .bool _ | .string _ | .object _ | .new _ | .noExpr => []

/-- The branches of a `case` expression. -/
def branches : Form → List Branch
  | .case _ branches => branches
  | _ => []

/-- The integer that an expression is. -/
def literal? : Form → Option Int
  | .int value => some value
  | _ => none

end Form

/-- A line that is a word. -/
def LineInRange (line : Option Nat) : Prop :=
  ∀ number ∈ line, number < Json.Numeral.wordCount

/-- An expression whose numbers are words. -/
inductive Expr.InRange : Expr → Prop
  | node {e : Expr} (line : LineInRange e.line)
      (branches : ∀ branch ∈ e.form.branches, LineInRange branch.line)
      (literal : ∀ value ∈ e.form.literal?, -literalBound ≤ value ∧ value < literalBound)
      (inside : ∀ child ∈ e.form.children, child.InRange) : e.InRange

/-- An expression with at most so many levels of expressions inside it. -/
def Expr.NestsWithin : Nat → Expr → Prop
  | 0, e => e.form.children = []
  | levels + 1, e => ∀ child ∈ e.form.children, child.NestsWithin levels

/-- An expression with at most so many levels of expressions, its own among them. -/
def Expr.LevelsWithin : Nat → Expr → Prop
  | 0, _ => False
  | levels + 1, e => e.NestsWithin levels

/-- The expressions that an expression consists of, itself among them. -/
inductive Expr.Contains (e : Expr) : Expr → Prop
  | self : e.Contains e
  | child {inside child : Expr} (contained : e.Contains inside)
      (mem : child ∈ inside.form.children) : e.Contains child

/-! ## Induction -/

section

variable {P : Expr → Prop}

mutual

/-- Induction over source expressions: a statement that passes from the expressions directly inside
an expression to the expression holds of every expression. -/
theorem Expr.children_induction
    (step : ∀ line form, (∀ child ∈ Form.children form, P child) → P ⟨line, form⟩) (e : Expr) :
    P e := by
  obtain ⟨line, form⟩ := e
  exact step line form (Form.forall_children step form)

theorem Form.forall_children
    (step : ∀ line form, (∀ child ∈ Form.children form, P child) → P ⟨line, form⟩) :
    ∀ form : Form, ∀ child ∈ form.children, P child
  | .dispatch none _ args | .staticDispatch none _ _ args => forall_items step args
  | .dispatch (some receiver) _ args | .staticDispatch (some receiver) _ _ args =>
    List.forall_mem_cons.mpr ⟨Expr.children_induction step receiver, forall_items step args⟩
  | .case scrutinee branches =>
    List.forall_mem_cons.mpr ⟨Expr.children_induction step scrutinee, forall_bodies step branches⟩
  | .block items => forall_items step items
  | .cond predicate thenArm elseArm => by
    have first := Expr.children_induction step predicate
    have second := Expr.children_induction step thenArm
    have third := Expr.children_induction step elseArm
    simp [Form.children, first, second, third]
  | .letIn _ _ (some left) right | .loop left right | .binary _ left right => by
    have first := Expr.children_induction step left
    have second := Expr.children_induction step right
    simp [Form.children, first, second]
  | .letIn _ _ none part | .assign _ part | .negate part | .complement part | .isVoid part => by
    have only := Expr.children_induction step part
    simp [Form.children, only]
  | .int _ | .bool _ | .string _ | .object _ | .new _ | .noExpr => List.forall_mem_nil _

theorem forall_items
    (step : ∀ line form, (∀ child ∈ Form.children form, P child) → P ⟨line, form⟩) :
    ∀ items : List Expr, ∀ item ∈ items, P item
  | [] => List.forall_mem_nil _
  | item :: rest =>
    List.forall_mem_cons.mpr ⟨Expr.children_induction step item, forall_items step rest⟩

theorem forall_bodies
    (step : ∀ line form, (∀ child ∈ Form.children form, P child) → P ⟨line, form⟩) :
    ∀ branches : List Branch, ∀ body ∈ branches.map Branch.body, P body
  | [] => List.forall_mem_nil _
  | ⟨_, _, body, _⟩ :: rest =>
    List.forall_mem_cons.mpr ⟨Expr.children_induction step body, forall_bodies step rest⟩

end

end

/-! ## Programs -/

namespace Feature

/-- The formal parameters of a feature. -/
def formals : Feature → List Formal
  | .attr _ => []
  | .method decl => decl.formals

/-- The line of a feature. -/
def line : Feature → Option Nat
  | .attr decl => decl.line
  | .method decl => decl.line

/-- The expression that a feature holds: an initializer, if there is one, or a body. -/
def root? : Feature → Option Expr
  | .attr decl => decl.init
  | .method decl => some decl.body

/-- A feature whose numbers are words. -/
structure InRange (feature : Feature) : Prop where
  line : LineInRange feature.line
  formals : ∀ formal ∈ feature.formals, LineInRange formal.line
  root : ∀ root ∈ feature.root?, root.InRange

end Feature

namespace Program

/-- A program whose numbers are words. -/
structure InRange (p : Program) : Prop where
  lines : ∀ c ∈ p.classes, LineInRange c.line
  features : ∀ c ∈ p.classes, ∀ feature ∈ c.features, feature.InRange

/-- A program none of whose expressions nests more than so many levels. -/
def NestsWithin (levels : Nat) (p : Program) : Prop :=
  ∀ c ∈ p.classes, ∀ feature ∈ c.features, ∀ root ∈ feature.root?, root.NestsWithin levels

/-- An expression of a program. -/
def Contains (p : Program) (e : Expr) : Prop :=
  ∃ c ∈ p.classes, ∃ feature ∈ c.features, ∃ root ∈ feature.root?, root.Contains e

end Program

end Source

end SelfTyped
