/-
SelfTyped.Proofs.ExplicitForms — what lowering keeps of a source program.

Lines apart, a program says what a source program says that has the
explicit form of the one it stands for.  `toSource` writes a program down
as a source program, with nothing left out but lines.  Written down, what a
source program stands for is its explicit form; lines make no difference to
what is written; and what is written stands for the program again, up to
lines.  So programs are the same exactly if the explicit forms of what they
stand for are equal.
-/
import SelfTyped.Program.Lowering
import SelfTyped.Proofs.LineInheritance
import SelfTyped.Proofs.Unlined
import SelfTyped.Source.Explicit

namespace SelfTyped

/-! ## Writing down -/

mutual

/-- The source expression that states all of an expression but its lines. -/
def Expr.toSource : Expr → Source.Expr
  | ⟨_, form⟩ => ⟨none, form.toSource⟩

/-- The parts of an expression as source expressions. -/
def Form.toSource : Form → Source.Form
  | .assign name value => .assign name value.toSource
  | .dispatch receiver method args =>
    .dispatch (some receiver.toSource) method (itemsToSource args)
  | .staticDispatch receiver type method args =>
    .staticDispatch (some receiver.toSource) type method (itemsToSource args)
  | .cond predicate thenArm elseArm => .cond predicate.toSource thenArm.toSource elseArm.toSource
  | .loop condition body => .loop condition.toSource body.toSource
  | .case scrutinee branches => .case scrutinee.toSource (branchesToSource branches)
  | .block items => .block (itemsToSource items)
  | .letIn name type init body => .letIn name type (some init.toSource) body.toSource
  | .binary op left right => .binary op left.toSource right.toSource
  | .negate operand => .negate operand.toSource
  | .complement operand => .complement operand.toSource
  | .int value => .int value
  | .bool value => .bool value
  | .string value => .string value
  | .new type => .new type
  | .isVoid operand => .isVoid operand.toSource
  | .noExpr => .noExpr
  | .object name => .object name

/-- Expressions as source expressions. -/
def itemsToSource : List Expr → List Source.Expr
  | [] => []
  | item :: rest => item.toSource :: itemsToSource rest

/-- Branches as they are written. -/
def branchesToSource : List Branch → List Source.Branch
  | [] => []
  | ⟨_, name, type, body⟩ :: rest => ⟨name, type, body.toSource, none⟩ :: branchesToSource rest

end

/-- A formal parameter as it is written. -/
def Formal.toSource (formal : Formal) : Source.Formal :=
  ⟨formal.name, formal.type, none⟩

/-- A feature as it is written. -/
def Feature.toSource : Feature → Source.Feature
  | .attr decl => .attr ⟨decl.name, decl.type, some decl.init.toSource, none⟩
  | .method decl =>
    .method ⟨decl.name, decl.formals.map Formal.toSource, decl.returnType, decl.body.toSource, none⟩

/-- A class as it is written. -/
def Class.toSource (c : Class) : Source.Class :=
  ⟨c.name, some c.parent, some c.file, none, c.features.map Feature.toSource⟩

/-- A program as it is written. -/
def Program.toSource (p : Program) : Source.Program :=
  ⟨p.classes.map Class.toSource⟩

/-! ## What a source program stands for -/

mutual

/-- What an expression stands for is written down as its explicit form. -/
theorem Expr.toSource_ofSource (around : Nat) (e : Source.Expr) :
    (Expr.ofSource around e).toSource = e.explicit := by
  obtain ⟨line, form⟩ := e
  rw [Expr.ofSource, Expr.toSource, Source.Expr.explicit,
    Form.toSource_ofSource (line.getD around) form]

theorem Form.toSource_ofSource (line : Nat) : ∀ form : Source.Form,
    (Form.ofSource line form).toSource = form.explicit
  | .int _ | .bool _ | .string _ | .object _ | .new _ | .noExpr => rfl
  | .assign _ value => by
    simp [Form.ofSource, Form.toSource, Source.Form.explicit, Expr.toSource_ofSource line value]
  | .dispatch none _ args => by
    simp [Form.ofSource, Form.toSource, Source.Form.explicit, Expr.toSource,
      itemsToSource_ofSource line args]
  | .dispatch (some receiver) _ args => by
    simp [Form.ofSource, Form.toSource, Source.Form.explicit, Expr.toSource_ofSource line receiver,
      itemsToSource_ofSource line args]
  | .staticDispatch none _ _ args => by
    simp [Form.ofSource, Form.toSource, Source.Form.explicit, Expr.toSource,
      itemsToSource_ofSource line args]
  | .staticDispatch (some receiver) _ _ args => by
    simp [Form.ofSource, Form.toSource, Source.Form.explicit, Expr.toSource_ofSource line receiver,
      itemsToSource_ofSource line args]
  | .cond predicate thenArm elseArm => by
    simp [Form.ofSource, Form.toSource, Source.Form.explicit, Expr.toSource_ofSource line predicate,
      Expr.toSource_ofSource line thenArm, Expr.toSource_ofSource line elseArm]
  | .loop condition body => by
    simp [Form.ofSource, Form.toSource, Source.Form.explicit, Expr.toSource_ofSource line condition,
      Expr.toSource_ofSource line body]
  | .case scrutinee branches => by
    simp [Form.ofSource, Form.toSource, Source.Form.explicit, Expr.toSource_ofSource line scrutinee,
      branchesToSource_ofSource line branches]
  | .block items => by
    simp [Form.ofSource, Form.toSource, Source.Form.explicit, itemsToSource_ofSource line items]
  | .letIn _ _ none body => by
    simp [Form.ofSource, Form.toSource, Source.Form.explicit, Expr.toSource,
      Expr.toSource_ofSource line body]
  | .letIn _ _ (some init) body => by
    simp [Form.ofSource, Form.toSource, Source.Form.explicit, Expr.toSource_ofSource line init,
      Expr.toSource_ofSource line body]
  | .binary _ left right => by
    simp [Form.ofSource, Form.toSource, Source.Form.explicit, Expr.toSource_ofSource line left,
      Expr.toSource_ofSource line right]
  | .negate operand | .complement operand | .isVoid operand => by
    simp [Form.ofSource, Form.toSource, Source.Form.explicit, Expr.toSource_ofSource line operand]

theorem itemsToSource_ofSource (line : Nat) : ∀ items : List Source.Expr,
    itemsToSource (itemsOfSource line items) = Source.explicitItems items
  | [] => rfl
  | item :: rest => by
    simp [itemsOfSource, itemsToSource, Source.explicitItems, Expr.toSource_ofSource line item,
      itemsToSource_ofSource line rest]

theorem branchesToSource_ofSource (line : Nat) : ∀ branches : List Source.Branch,
    branchesToSource (branchesOfSource line branches) = Source.explicitBranches branches
  | [] => rfl
  | ⟨_, _, body, own⟩ :: rest => by
    simp [branchesOfSource, branchesToSource, Source.explicitBranches,
      Expr.toSource_ofSource (own.getD line) body, branchesToSource_ofSource line rest]

end

theorem Formal.toSource_ofSource (line : Nat) (formal : Source.Formal) :
    (Formal.ofSource line formal).toSource = formal.explicit :=
  rfl

theorem Feature.toSource_ofSource (around : Nat) (feature : Source.Feature) :
    (Feature.ofSource around feature).toSource = feature.explicit := by
  cases feature with
  | attr decl =>
    obtain ⟨name, type, init, line⟩ := decl
    cases init <;>
      simp [Feature.ofSource, Attribute.ofSource, Feature.toSource, Source.Feature.explicit,
        Source.Attribute.explicit, Expr.toSource_ofSource, Expr.toSource, Form.toSource]
  | method decl =>
    simp [Feature.ofSource, Method.ofSource, Feature.toSource, Source.Feature.explicit,
      Source.Method.explicit, Expr.toSource_ofSource, Formal.toSource_ofSource]

theorem Class.toSource_ofSource (file : String) (source : Source.Class) :
    (Class.ofSource file source).toSource = source.explicit file := by
  simp [Class.ofSource, Class.toSource, Source.Class.explicit, Feature.toSource_ofSource]

/-- What a program stands for is written down as its explicit form. -/
theorem Program.toSource_ofSource (file : String) (source : Source.Program) :
    (Program.ofSource file source).toSource = source.explicit file := by
  simp [Program.ofSource, Program.toSource, Source.Program.explicit, Class.toSource_ofSource]

/-! ## Lines -/

theorem itemsToSource_eq_map (items : List Expr) :
    itemsToSource items = items.map Expr.toSource := by
  induction items with
  | nil => rfl
  | cons item rest ih => rw [itemsToSource, ih, List.map_cons]

theorem branchesToSource_eq_map (branches : List Branch) :
    branchesToSource branches =
      branches.map fun branch => ⟨branch.name, branch.type, branch.body.toSource, none⟩ := by
  induction branches with
  | nil => rfl
  | cons branch rest ih =>
    obtain ⟨line, name, type, body⟩ := branch
    rw [branchesToSource, ih, List.map_cons]

theorem unlinedItems_eq_map (items : List Expr) : unlinedItems items = items.map Expr.unlined := by
  induction items with
  | nil => rfl
  | cons item rest ih => rw [unlinedItems, ih, List.map_cons]

theorem unlinedBranches_eq_map (branches : List Branch) :
    unlinedBranches branches =
      branches.map fun branch => ⟨0, branch.name, branch.type, branch.body.unlined⟩ := by
  induction branches with
  | nil => rfl
  | cons branch rest ih =>
    obtain ⟨line, name, type, body⟩ := branch
    rw [unlinedBranches, ih, List.map_cons]

/-- Lines make no difference to what is written. -/
theorem Expr.toSource_unlined (e : Expr) : e.unlined.toSource = e.toSource := by
  induction e using Expr.parts_induction with
  | step line form ih =>
    cases form <;>
      simp_all [Expr.unlined, Form.unlined, Expr.toSource, Form.toSource, Form.parts,
        unlinedItems_eq_map, unlinedBranches_eq_map, itemsToSource_eq_map, branchesToSource_eq_map]

theorem Feature.toSource_unlined (feature : Feature) :
    feature.unlined.toSource = feature.toSource := by
  cases feature <;>
    simp [Feature.unlined, Attribute.unlined, Method.unlined, Feature.toSource, Formal.unlined,
      Formal.toSource, Expr.toSource_unlined]

theorem Program.toSource_unlined (p : Program) : p.unlined.toSource = p.toSource := by
  simp [Program.unlined, Class.unlined, Program.toSource, Class.toSource, Feature.toSource_unlined]

/-! ## Reading back -/

/-- What an expression is written down as stands for it again, up to lines. -/
theorem Expr.unlined_ofSource_toSource (e : Expr) (around : Nat) :
    (Expr.ofSource around e.toSource).unlined = e.unlined := by
  induction e using Expr.parts_induction generalizing around with
  | step line form ih =>
    cases form <;>
      simp_all [Expr.unlined, Form.unlined, Expr.toSource, Form.toSource, Form.parts,
        Expr.ofSource, Form.ofSource, Branch.ofSource, unlinedItems_eq_map,
        unlinedBranches_eq_map, itemsToSource_eq_map, branchesToSource_eq_map,
        itemsOfSource_eq_map, branchesOfSource_eq_map]

theorem Feature.unlined_ofSource_toSource (feature : Feature) (around : Nat) :
    (Feature.ofSource around feature.toSource).unlined = feature.unlined := by
  cases feature <;>
    simp [Feature.toSource, Feature.ofSource, Attribute.ofSource, Method.ofSource, Feature.unlined,
      Attribute.unlined, Method.unlined, Formal.toSource, Formal.ofSource, Formal.unlined,
      Expr.unlined_ofSource_toSource]

theorem Program.unlined_ofSource_toSource (file : String) (p : Program) :
    (Program.ofSource file p.toSource).unlined = p.unlined := by
  simp [Program.toSource, Class.toSource, Program.ofSource, Class.ofSource, Program.unlined,
    Class.unlined, Feature.unlined_ofSource_toSource]

/-- Two source programs stand for the same program exactly if their explicit forms are equal. -/
theorem Program.same_ofSource_iff (file : String) (source other : Source.Program) :
    (Program.ofSource file source).same (.ofSource file other) = true ↔
      source.explicit file = other.explicit file := by
  rw [Program.same_iff, ← toSource_ofSource, ← toSource_ofSource]
  constructor
  · intro same
    rw [← toSource_unlined (.ofSource file source), same, toSource_unlined]
  · intro same
    rw [← unlined_ofSource_toSource file (.ofSource file source), same, unlined_ofSource_toSource]

end SelfTyped
