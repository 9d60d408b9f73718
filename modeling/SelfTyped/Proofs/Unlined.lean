/-
SelfTyped.Proofs.Unlined — programs with their lines taken out.

`Program.same` compares two programs node by node and passes over lines.
Here lines are taken out instead: `unlined` puts line 0 in the place of
every line.  Two programs are the same exactly if nothing else tells them
apart (`Program.same_iff`), so a statement about programs that are the
same becomes one about a program and its unlined form, and that one is an
equation.
-/
import SelfTyped.Program.Sameness
import SelfTyped.Proofs.Parts

namespace SelfTyped

/-! ## Expressions -/

mutual

/-- An expression without its lines. -/
def Expr.unlined : Expr → Expr
  | ⟨_, form⟩ => ⟨0, form.unlined⟩

/-- The parts of an expression without their lines. -/
def Form.unlined : Form → Form
  | .assign name value => .assign name value.unlined
  | .dispatch receiver method args => .dispatch receiver.unlined method (unlinedItems args)
  | .staticDispatch receiver type method args =>
    .staticDispatch receiver.unlined type method (unlinedItems args)
  | .cond predicate thenArm elseArm => .cond predicate.unlined thenArm.unlined elseArm.unlined
  | .loop condition body => .loop condition.unlined body.unlined
  | .case scrutinee branches => .case scrutinee.unlined (unlinedBranches branches)
  | .block items => .block (unlinedItems items)
  | .letIn name type init body => .letIn name type init.unlined body.unlined
  | .binary op left right => .binary op left.unlined right.unlined
  | .negate operand => .negate operand.unlined
  | .complement operand => .complement operand.unlined
  | .int value => .int value
  | .bool value => .bool value
  | .string value => .string value
  | .new type => .new type
  | .isVoid operand => .isVoid operand.unlined
  | .noExpr => .noExpr
  | .object name => .object name

/-- Expressions without their lines. -/
def unlinedItems : List Expr → List Expr
  | [] => []
  | item :: rest => item.unlined :: unlinedItems rest

/-- Branches without their lines. -/
def unlinedBranches : List Branch → List Branch
  | [] => []
  | ⟨_, name, type, body⟩ :: rest => ⟨0, name, type, body.unlined⟩ :: unlinedBranches rest

end

/-! ## Sameness -/

/-- An expression is the same as others exactly if these are equal to it without their lines. -/
def Expr.SameIff (e : Expr) : Prop :=
  ∀ other : Expr, e.same other = true ↔ e.unlined = other.unlined

theorem sameItems_iff {items : List Expr} (each : ∀ item ∈ items, item.SameIff) :
    ∀ others, sameItems items others = true ↔ unlinedItems items = unlinedItems others := by
  induction items with
  | nil => rintro (_ | ⟨other, others⟩) <;> simp [sameItems, unlinedItems]
  | cons item items ih =>
    rw [List.forall_mem_cons] at each
    rintro (_ | ⟨other, others⟩)
    · simp [sameItems, unlinedItems]
    · simp [sameItems, unlinedItems, each.1 other, ih each.2 others]

theorem sameBranches_iff {branches : List Branch} (each : ∀ b ∈ branches, b.body.SameIff) :
    ∀ others, sameBranches branches others = true ↔
      unlinedBranches branches = unlinedBranches others := by
  induction branches with
  | nil => rintro (_ | ⟨⟨_, _, _, _⟩, others⟩) <;> simp [sameBranches, unlinedBranches]
  | cons branch branches ih =>
    obtain ⟨line, name, type, body⟩ := branch
    rw [List.forall_mem_cons] at each
    rintro (_ | ⟨⟨_, name', type', body'⟩, others⟩)
    · simp [sameBranches, unlinedBranches]
    · simp [sameBranches, unlinedBranches, each.1 body', ih each.2 others, and_assoc]

/-- Only expressions of one kind are the same. -/
theorem Form.same_kind {form other : Form} (same : form.same other = true) :
    form.ctorIdx = other.ctorIdx := by
  rw [Form.same.eq_def] at same
  split at same
  case h_19 => exact absurd same Bool.false_ne_true
  all_goals rfl

theorem Form.unlined_kind (form : Form) : form.unlined.ctorIdx = form.ctorIdx := by
  cases form <;> rfl

/-- Two kinds of expressions differ, with lines and without. -/
theorem Form.same_iff_of_kind_ne {form other : Form} (differ : form.ctorIdx ≠ other.ctorIdx) :
    form.same other = true ↔ form.unlined = other.unlined := by
  refine iff_of_false (fun same => differ (same_kind same)) fun equal => differ ?_
  rw [← form.unlined_kind, equal, other.unlined_kind]

/-- Expressions of one kind agree if their parts do. -/
theorem Form.same_iff {form : Form} (each : ∀ part ∈ form.parts, part.expr.SameIff)
    (other : Form) : form.same other = true ↔ form.unlined = other.unlined := by
  have items : ∀ {items : List Expr}, (∀ item ∈ items, Part.plain item ∈ form.parts) →
      ∀ others, sameItems items others = true ↔ unlinedItems items = unlinedItems others :=
    fun inside => sameItems_iff fun item mem => each _ (inside item mem)
  cases form with
  | assign n v =>
    have value : v.SameIff := each _ (.head _)
    cases other with
    | assign n' v' =>
      rw [same, unlined, unlined, assign.injEq, Bool.and_eq_true, beq_iff_eq, value]
    | _ => exact same_iff_of_kind_ne (Nat.ne_of_beq_eq_false rfl)
  | dispatch r m as =>
    have receiver : r.SameIff := each _ (.head _)
    have args := items fun e mem => .tail _ (List.mem_map_of_mem mem)
    cases other with
    | dispatch r' m' as' =>
      rw [same, unlined, unlined, dispatch.injEq, Bool.and_eq_true, Bool.and_eq_true, beq_iff_eq,
        receiver, args, and_assoc]
    | _ => exact same_iff_of_kind_ne (Nat.ne_of_beq_eq_false rfl)
  | staticDispatch r t m as =>
    have receiver : r.SameIff := each _ (.head _)
    have args := items fun e mem => .tail _ (List.mem_map_of_mem mem)
    cases other with
    | staticDispatch r' t' m' as' =>
      rw [same, unlined, unlined, staticDispatch.injEq, Bool.and_eq_true, Bool.and_eq_true,
        Bool.and_eq_true, beq_iff_eq, beq_iff_eq, receiver, args, and_assoc, and_assoc]
    | _ => exact same_iff_of_kind_ne (Nat.ne_of_beq_eq_false rfl)
  | cond p t e =>
    have predicate : p.SameIff := each _ (.head _)
    have thenArm : t.SameIff := each _ (.tail _ (.head _))
    have elseArm : e.SameIff := each _ (.tail _ (.tail _ (.head _)))
    cases other with
    | cond p' t' e' =>
      rw [same, unlined, unlined, cond.injEq, Bool.and_eq_true, Bool.and_eq_true, predicate,
        thenArm, elseArm, and_assoc]
    | _ => exact same_iff_of_kind_ne (Nat.ne_of_beq_eq_false rfl)
  | loop c e =>
    have condition : c.SameIff := each _ (.head _)
    have body : e.SameIff := each _ (.tail _ (.head _))
    cases other with
    | loop c' e' =>
      rw [same, unlined, unlined, loop.injEq, Bool.and_eq_true, condition, body]
    | _ => exact same_iff_of_kind_ne (Nat.ne_of_beq_eq_false rfl)
  | case s bs =>
    have scrutinee : s.SameIff := each _ (.head _)
    have branches := sameBranches_iff fun b mem =>
      each _ (.tail _ (List.mem_map_of_mem (f := Part.ofBranch) mem))
    cases other with
    | case s' bs' =>
      rw [same, unlined, unlined, case.injEq, Bool.and_eq_true, scrutinee, branches]
    | _ => exact same_iff_of_kind_ne (Nat.ne_of_beq_eq_false rfl)
  | block es =>
    have items := items fun e mem => List.mem_map_of_mem mem
    cases other with
    | block es' =>
      rw [same, unlined, unlined, block.injEq, items]
    | _ => exact same_iff_of_kind_ne (Nat.ne_of_beq_eq_false rfl)
  | letIn n t i e =>
    have init : i.SameIff := each _ (.head _)
    have body : e.SameIff := each _ (.tail _ (.head _))
    cases other with
    | letIn n' t' i' e' =>
      rw [same, unlined, unlined, letIn.injEq, Bool.and_eq_true, Bool.and_eq_true,
        Bool.and_eq_true, beq_iff_eq, beq_iff_eq, init, body, and_assoc, and_assoc]
    | _ => exact same_iff_of_kind_ne (Nat.ne_of_beq_eq_false rfl)
  | binary op l r =>
    have left : l.SameIff := each _ (.head _)
    have right : r.SameIff := each _ (.tail _ (.head _))
    cases other with
    | binary op' l' r' =>
      rw [same, unlined, unlined, binary.injEq, Bool.and_eq_true, Bool.and_eq_true, beq_iff_eq,
        left, right, and_assoc]
    | _ => exact same_iff_of_kind_ne (Nat.ne_of_beq_eq_false rfl)
  | negate e =>
    have operand : e.SameIff := each _ (.head _)
    cases other with
    | negate e' =>
      rw [same, unlined, unlined, negate.injEq, operand]
    | _ => exact same_iff_of_kind_ne (Nat.ne_of_beq_eq_false rfl)
  | complement e =>
    have operand : e.SameIff := each _ (.head _)
    cases other with
    | complement e' =>
      rw [same, unlined, unlined, complement.injEq, operand]
    | _ => exact same_iff_of_kind_ne (Nat.ne_of_beq_eq_false rfl)
  | isVoid e =>
    have operand : e.SameIff := each _ (.head _)
    cases other with
    | isVoid e' =>
      rw [same, unlined, unlined, isVoid.injEq, operand]
    | _ => exact same_iff_of_kind_ne (Nat.ne_of_beq_eq_false rfl)
  | int v =>
    cases other with
    | int v' =>
      rw [same, unlined, unlined, int.injEq, beq_iff_eq]
    | _ => exact same_iff_of_kind_ne (Nat.ne_of_beq_eq_false rfl)
  | bool v =>
    cases other with
    | bool v' =>
      rw [same, unlined, unlined, bool.injEq, beq_iff_eq]
    | _ => exact same_iff_of_kind_ne (Nat.ne_of_beq_eq_false rfl)
  | string v =>
    cases other with
    | string v' =>
      rw [same, unlined, unlined, string.injEq, beq_iff_eq]
    | _ => exact same_iff_of_kind_ne (Nat.ne_of_beq_eq_false rfl)
  | new v =>
    cases other with
    | new v' =>
      rw [same, unlined, unlined, new.injEq, beq_iff_eq]
    | _ => exact same_iff_of_kind_ne (Nat.ne_of_beq_eq_false rfl)
  | object v =>
    cases other with
    | object v' =>
      rw [same, unlined, unlined, object.injEq, beq_iff_eq]
    | _ => exact same_iff_of_kind_ne (Nat.ne_of_beq_eq_false rfl)
  | noExpr =>
    cases other with
    | noExpr => exact iff_of_true (by rw [Form.same]) rfl
    | _ => exact same_iff_of_kind_ne (Nat.ne_of_beq_eq_false rfl)

theorem Expr.same_iff (e other : Expr) : e.same other = true ↔ e.unlined = other.unlined := by
  induction e using Expr.parts_induction generalizing other with
  | step line form ih =>
    obtain ⟨line', form'⟩ := other
    rw [Expr.same, Expr.unlined, Expr.unlined, Form.same_iff ih form', Expr.mk.injEq,
      and_iff_right rfl]

theorem Expr.unlined_line (e : Expr) : e.unlined.line = 0 := by
  cases e
  rfl

theorem Expr.unlined_isMissing (e : Expr) : e.unlined.isMissing = e.isMissing := by
  obtain ⟨line, form⟩ := e
  cases form <;> rfl

/-! ## Declarations -/

/-- A formal parameter without its line. -/
def Formal.unlined (f : Formal) : Formal :=
  { f with line := 0 }

/-- An attribute without its lines. -/
def Attribute.unlined (a : Attribute) : Attribute :=
  { a with line := 0, init := a.init.unlined }

/-- A method without its lines. -/
def Method.unlined (m : Method) : Method :=
  { m with line := 0, formals := m.formals.map Formal.unlined, body := m.body.unlined }

/-- A feature without its lines. -/
def Feature.unlined : Feature → Feature
  | .attr a => .attr a.unlined
  | .method m => .method m.unlined

/-- A class without its lines. -/
def Class.unlined (c : Class) : Class :=
  { c with line := 0, features := c.features.map Feature.unlined }

/-- A program without its lines. -/
def Program.unlined (p : Program) : Program :=
  ⟨p.classes.map Class.unlined⟩

/-- Lists agree item by item if their items agree in what a function keeps of them. -/
theorem sameLists_iff {α β : Type} {same : α → α → Bool} {keep : α → β}
    (item : ∀ a b, same a b = true ↔ keep a = keep b) :
    ∀ as bs : List α, sameLists same as bs = true ↔ as.map keep = bs.map keep
  | [], [] | [], _ :: _ | _ :: _, [] => by simp [sameLists]
  | a :: as, b :: bs => by simp [sameLists, item, sameLists_iff item as bs]

theorem Formal.same_iff (a b : Formal) : a.same b = true ↔ a.unlined = b.unlined := by
  simp [Formal.same, Formal.unlined]

theorem Feature.same_iff (a b : Feature) : a.same b = true ↔ a.unlined = b.unlined := by
  cases a <;> cases b <;>
    simp [Feature.same, Feature.unlined, Attribute.unlined, Method.unlined, Expr.same_iff,
      sameLists_iff Formal.same_iff, and_assoc]

theorem Class.same_iff (a b : Class) : a.same b = true ↔ a.unlined = b.unlined := by
  simp [Class.same, Class.unlined, sameLists_iff Feature.same_iff, and_assoc]

/-- **Programs are the same exactly if they are equal without their lines.** -/
theorem Program.same_iff (p p' : Program) : p.same p' = true ↔ p.unlined = p'.unlined := by
  simp [Program.same, Program.unlined, sameLists_iff Class.same_iff]

end SelfTyped
