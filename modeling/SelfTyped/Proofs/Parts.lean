/-
SelfTyped.Proofs.Parts — expressions as trees of parts.

Eighteen kinds of expressions have one thing in common: an expression has
parts, in the order of evaluation, and some parts are under a binder
(`Form.parts`).  Statements about whole expressions are proved by one
induction over parts (`Expr.parts_induction`) in place of one over each
kind, and a node of an expression is addressed by the numbers of the
parts that lead to it.
-/
import SelfTyped.Program.Basic

namespace SelfTyped

/-- A variable with its declared type, where a part of an expression is under a binder. -/
abbrev Binder := Option (Name × Name)

/-- A part of an expression, and what it is bound by. -/
structure Part where
  binder : Binder
  expr : Expr

namespace Part

/-- A part that is under no binder. -/
def plain (e : Expr) : Part :=
  ⟨none, e⟩

/-- The body of a branch is under the variable of the branch. -/
def ofBranch (b : Branch) : Part :=
  ⟨some (b.name, b.type), b.body⟩

@[simp] theorem plain_binder (e : Expr) : (plain e).binder = none := rfl

@[simp] theorem plain_expr (e : Expr) : (plain e).expr = e := rfl

@[simp] theorem ofBranch_binder (b : Branch) : (ofBranch b).binder = some (b.name, b.type) := rfl

@[simp] theorem ofBranch_expr (b : Branch) : (ofBranch b).expr = b.body := rfl

end Part

namespace Form

/-- The parts of an expression, in the order of evaluation. -/
def parts : Form → List Part
  | .assign _ value => [.plain value]
  | .dispatch receiver _ args => .plain receiver :: args.map .plain
  | .staticDispatch receiver _ _ args => .plain receiver :: args.map .plain
  | .cond predicate thenArm elseArm => [.plain predicate, .plain thenArm, .plain elseArm]
  | .loop condition body => [.plain condition, .plain body]
  | .case scrutinee branches => .plain scrutinee :: branches.map .ofBranch
  | .block items => items.map .plain
  | .letIn name type init body => [.plain init, ⟨some (name, type), body⟩]
  | .binary _ left right => [.plain left, .plain right]
  | .negate operand => [.plain operand]
  | .complement operand => [.plain operand]
  | .isVoid operand => [.plain operand]
  | .int _ | .bool _ | .string _ | .new _ | .noExpr | .object _ => []

/-- Parts are children, seen with their binders. -/
theorem map_expr_parts (form : Form) : form.parts.map Part.expr = form.children := by
  have plain : ∀ items : List Expr, (items.map Part.plain).map Part.expr = items := by
    intro items
    rw [List.map_map]
    exact List.map_id items
  have ofBranch : ∀ branches : List Branch,
      (branches.map Part.ofBranch).map Part.expr = branches.map Branch.body := by
    intro branches
    rw [List.map_map]
    rfl
  cases form <;>
    simp only [parts, children, List.map_cons, List.map_nil, Part.plain_expr, plain, ofBranch]

end Form

/-! ## Induction -/

theorem sizeOf_lt_of_items {items : List Expr} {part : Part} (hp : part ∈ items.map Part.plain) :
    sizeOf part.expr < sizeOf items := by
  obtain ⟨item, hitem, rfl⟩ := List.mem_map.mp hp
  exact List.sizeOf_lt_of_mem hitem

theorem sizeOf_lt_of_branches {branches : List Branch} {part : Part}
    (hp : part ∈ branches.map Part.ofBranch) : sizeOf part.expr < sizeOf branches := by
  obtain ⟨⟨line, name, type, body⟩, hbranch, rfl⟩ := List.mem_map.mp hp
  have hlt := List.sizeOf_lt_of_mem hbranch
  rw [Branch.mk.sizeOf_spec] at hlt
  simp only [Part.ofBranch_expr]
  omega

/-- A part is smaller than the expression. -/
theorem Form.sizeOf_part_lt {form : Form} {part : Part} (hp : part ∈ form.parts) :
    sizeOf part.expr < sizeOf form := by
  cases form with
  | dispatch receiver method args =>
    rcases List.mem_cons.mp hp with rfl | hp
    · simp only [Part.plain_expr, Form.dispatch.sizeOf_spec]
      omega
    · have hlt := sizeOf_lt_of_items hp
      simp only [Form.dispatch.sizeOf_spec]
      omega
  | staticDispatch receiver type method args =>
    rcases List.mem_cons.mp hp with rfl | hp
    · simp only [Part.plain_expr, Form.staticDispatch.sizeOf_spec]
      omega
    · have hlt := sizeOf_lt_of_items hp
      simp only [Form.staticDispatch.sizeOf_spec]
      omega
  | case scrutinee branches =>
    rcases List.mem_cons.mp hp with rfl | hp
    · simp only [Part.plain_expr, Form.case.sizeOf_spec]
      omega
    · have hlt := sizeOf_lt_of_branches hp
      simp only [Form.case.sizeOf_spec]
      omega
  | block items =>
    have hlt := sizeOf_lt_of_items hp
    simp only [Form.block.sizeOf_spec]
    omega
  | cond predicate thenArm elseArm =>
    simp only [parts, List.mem_cons, List.not_mem_nil, or_false] at hp
    rcases hp with rfl | rfl | rfl <;>
      (simp only [Part.plain_expr, Form.cond.sizeOf_spec]; omega)
  | loop condition body =>
    simp only [parts, List.mem_cons, List.not_mem_nil, or_false] at hp
    rcases hp with rfl | rfl <;> (simp only [Part.plain_expr, Form.loop.sizeOf_spec]; omega)
  | letIn name type init body =>
    simp only [parts, List.mem_cons, List.not_mem_nil, or_false] at hp
    rcases hp with rfl | rfl <;> (simp only [Part.plain_expr, Form.letIn.sizeOf_spec]; omega)
  | binary op left right =>
    simp only [parts, List.mem_cons, List.not_mem_nil, or_false] at hp
    rcases hp with rfl | rfl <;> (simp only [Part.plain_expr, Form.binary.sizeOf_spec]; omega)
  | assign name value =>
    rw [parts, List.mem_singleton] at hp
    rw [hp, Part.plain_expr, Form.assign.sizeOf_spec]
    omega
  | negate operand | complement operand | isVoid operand =>
    rw [parts, List.mem_singleton] at hp
    simp [hp]
  | int | bool | string | new | noExpr | object => simp [parts] at hp

/-- Induction over expressions: a statement that passes from the parts of an expression to the
expression holds of every expression. -/
theorem Expr.parts_induction {P : Expr → Prop}
    (step : ∀ line form, (∀ part ∈ Form.parts form, P part.expr) → P ⟨line, form⟩) : ∀ e, P e
  | ⟨line, form⟩ => step line form fun part _ => Expr.parts_induction step part.expr
termination_by e => e
decreasing_by
  next hp =>
    have hlt := Form.sizeOf_part_lt hp
    rw [Expr.mk.sizeOf_spec]
    omega

/-! ## Nodes -/

/-- The node that a path of part numbers leads to, and the variables bound on the way to it,
outermost first. -/
def Expr.at? (e : Expr) : List Nat → Option (List (Name × Name) × Expr)
  | [] => some ([], e)
  | i :: path =>
    e.form.parts[i]?.bind fun part =>
      (part.expr.at? path).map fun (binders, node) => (part.binder.toList ++ binders, node)

theorem Expr.at?_cons {line i : Nat} {form : Form} {path : List Nat}
    {binders : List (Name × Name)} {node : Expr} :
    Expr.at? ⟨line, form⟩ (i :: path) = some (binders, node) ↔
      ∃ part inner, form.parts[i]? = some part ∧ part.expr.at? path = some (inner, node) ∧
        binders = part.binder.toList ++ inner := by
  rw [Expr.at?]
  simp only [Option.bind_eq_some_iff, Option.map_eq_some_iff, Prod.exists, Prod.mk.injEq]
  constructor
  · rintro ⟨part, hpart, inner, node', found, rfl, rfl⟩
    exact ⟨part, inner, hpart, found, rfl⟩
  · rintro ⟨part, inner, hpart, found, rfl⟩
    exact ⟨part, hpart, inner, node, found, rfl, rfl⟩

/-! ## Walks -/

theorem walkItems_eq (depth : Nat) (items : List Expr) :
    walkItems depth items =
      (items.map Part.plain).flatMap fun part => part.expr.walkFrom depth := by
  induction items with
  | nil => rfl
  | cons item rest ih => rw [walkItems, ih, List.map_cons, List.flatMap_cons, Part.plain_expr]

theorem walkBranches_eq (depth : Nat) (branches : List Branch) :
    walkBranches depth branches =
      (branches.map Part.ofBranch).flatMap fun part => part.expr.walkFrom depth := by
  induction branches with
  | nil => rfl
  | cons branch rest ih =>
    obtain ⟨line, name, type, body⟩ := branch
    rw [walkBranches, ih, List.map_cons, List.flatMap_cons, Part.ofBranch_expr]

/-- The walk visits an expression, and then its parts one after the other. -/
theorem Form.walkBelow_eq (depth : Nat) (form : Form) :
    form.walkBelow depth = form.parts.flatMap fun part => part.expr.walkFrom depth := by
  cases form <;>
    simp [Form.walkBelow, Form.parts, walkItems_eq, walkBranches_eq]

/-- All nodes of an expression at depth `depth` lie above the depth `limit`. -/
def Expr.Within (limit depth : Nat) (e : Expr) : Prop :=
  ∀ node ∈ e.walkFrom depth, node.1 < limit

theorem Expr.within_iff {limit depth line : Nat} {form : Form} :
    Expr.Within limit depth ⟨line, form⟩ ↔
      depth < limit ∧ ∀ part ∈ form.parts, part.expr.Within limit (depth + 1) := by
  rw [Expr.Within, Expr.walkFrom, Form.walkBelow_eq]
  constructor
  · intro within
    refine ⟨within _ List.mem_cons_self, fun part hpart node hnode => ?_⟩
    exact within node (List.mem_cons_of_mem _ (List.mem_flatMap.mpr ⟨part, hpart, hnode⟩))
  · rintro ⟨here, below⟩ node hnode
    rcases List.mem_cons.mp hnode with rfl | hnode
    · exact here
    · obtain ⟨part, hpart, hnode⟩ := List.mem_flatMap.mp hnode
      exact below part hpart node hnode

end SelfTyped
