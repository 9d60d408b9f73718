/-
SelfTyped.Proofs.Restoration — the checker leaves no trace in its state.

The checker hands one state from part to part.  `typeExpr_state` says that
it comes back from every expression with the state it went in with, index
of the scopes and depth included.  So every part of an expression is
checked in the state of the whole, with the variable added that the part
is bound by (`Setting.partOutcome`), whatever came before it.

From this follow the types recorded below an expression (`infer_below`),
and that what is found in a part is found in one stretch of what is found
in the whole (`infer_findings_part`).
-/
import SelfTyped.Proofs.Parts
import SelfTyped.Proofs.ScopeBindings
import SelfTyped.Typing.Checker

namespace SelfTyped

namespace CheckState

variable {s : CheckState} {name type : Name}

/-! ## States -/

/-- The state in which a part of an expression is checked. -/
def under (s : CheckState) : Binder → CheckState
  | none => s
  | some (name, type) => s.enterWith name type

@[simp] theorem under_some (s : CheckState) (name type : Name) :
    s.under (some (name, type)) = s.enterWith name type := rfl

@[simp] theorem deeper_depth (s : CheckState) : s.deeper.depth = s.depth + 1 := rfl

theorem shallower_deeper (s : CheckState) : s.deeper.shallower = s := rfl

theorem enterWith_vars (s : CheckState) (name type : Name) :
    (s.enterWith name type).vars =
      if name = Known.self then s.vars.enter else (s.vars.enter.bind name type).2 := by
  rw [enterWith]
  split <;> rfl

@[simp] theorem enterWith_depth (s : CheckState) (name type : Name) :
    (s.enterWith name type).depth = s.depth := by
  rw [enterWith]
  split <;> rfl

@[simp] theorem under_depth (s : CheckState) (binder : Binder) :
    (s.under binder).depth = s.depth := by
  match binder with
  | none => rfl
  | some (name, type) => exact enterWith_depth s name type

theorem consistent_enterWith (consistent : s.vars.Consistent) (name type : Name) :
    (s.enterWith name type).vars.Consistent := by
  rw [enterWith_vars]
  split
  · exact Scoped.consistent_enter consistent
  · exact Scoped.consistent_bind (Scoped.consistent_enter consistent) name type

theorem consistent_under (consistent : s.vars.Consistent) (binder : Binder) :
    (s.under binder).vars.Consistent := by
  match binder with
  | none => exact consistent
  | some (name, type) => exact consistent_enterWith consistent name type

/-- Leaving undoes entering with a variable. -/
theorem leave_enterWith (consistent : s.vars.Consistent) (name type : Name) :
    (s.enterWith name type).leave = s := by
  have left : (s.enterWith name type).vars.leave? = some s.vars := by
    rw [enterWith_vars]
    split
    · exact Scoped.leave?_enter s.vars
    · rw [Scoped.leave?_bind (Scoped.consistent_enter consistent).noEmpty (List.cons_ne_nil _ _)
        (Scoped.boundHere_enter s.vars name)]
      exact Scoped.leave?_enter s.vars
  rw [leave, left, Option.getD_some]
  obtain ⟨vars, depth⟩ := s
  rw [CheckState.mk.injEq]
  exact ⟨rfl, enterWith_depth _ name type⟩

end CheckState

namespace Setting

variable {g : Setting} {s : CheckState} {e : Expr} {line : Nat} {form : Form} {part : Part}

/-! ## Restoration -/

/-- The outcome of checking a part of an expression that is checked in the state `s`. -/
def partOutcome (g : Setting) (s : CheckState) (part : Part) : Outcome :=
  g.typeExpr (s.under part.binder) part.expr

/-- Checking `e` restores the state. -/
def Restores (g : Setting) (e : Expr) : Prop :=
  ∀ s : CheckState, s.vars.Consistent → (g.typeExpr s e).state = s

theorem typeItems_state {items : List Expr} (restores : ∀ item ∈ items, g.Restores item)
    (consistent : s.vars.Consistent) : (g.typeItems s items).state = s := by
  induction items with
  | nil => rfl
  | cons item rest ih =>
    rw [typeItems, restores item List.mem_cons_self s consistent]
    exact ih fun other mem => restores other (List.mem_cons_of_mem item mem)

theorem typeBranches_state {branches : List Branch} (earlier : List Name) (joined : Option Name)
    (restores : ∀ branch ∈ branches, g.Restores branch.body) (consistent : s.vars.Consistent) :
    (g.typeBranches s earlier joined branches).state = s := by
  induction branches generalizing earlier joined with
  | nil => rfl
  | cons branch rest ih =>
    obtain ⟨line, name, type, body⟩ := branch
    have restored : (g.typeExpr (s.enterWith name type) body).state = s.enterWith name type :=
      restores _ List.mem_cons_self _ (CheckState.consistent_enterWith consistent name type)
    rw [typeBranches, restored, CheckState.leave_enterWith consistent]
    exact ih _ _ fun other mem => restores other (List.mem_cons_of_mem _ mem)

theorem infer_restores (restores : ∀ part ∈ form.parts, g.Restores part.expr)
    (consistent : s.vars.Consistent) : (g.infer s line form).state = s := by
  have plain : ∀ e, .plain e ∈ form.parts → (g.typeExpr s e).state = s :=
    fun e mem => restores (.plain e) mem s consistent
  cases form with
  | dispatch receiver method args | staticDispatch receiver named method args =>
    rw [infer, plain receiver List.mem_cons_self]
    refine typeItems_state (fun item mem => ?_) consistent
    exact restores (.plain item) (List.mem_cons_of_mem _ (List.mem_map_of_mem mem))
  | case scrutinee branches =>
    rw [infer, plain scrutinee List.mem_cons_self]
    refine typeBranches_state [] none (fun branch mem => ?_) consistent
    exact restores (.ofBranch branch) (List.mem_cons_of_mem _ (List.mem_map_of_mem mem))
  | block items =>
    refine typeItems_state (fun item mem => ?_) consistent
    exact restores (.plain item) (List.mem_map_of_mem mem)
  | letIn name type init body =>
    have opened := restores ⟨some (name, type), body⟩ (by simp [Form.parts]) _
      (CheckState.consistent_enterWith consistent name type)
    rw [infer, plain init (by simp [Form.parts]), opened]
    exact CheckState.leave_enterWith consistent name type
  | cond predicate thenArm elseArm =>
    rw [infer, plain predicate (by simp [Form.parts]), plain thenArm (by simp [Form.parts])]
    exact plain elseArm (by simp [Form.parts])
  | loop first second | binary op first second =>
    rw [infer, plain first (by simp [Form.parts])]
    exact plain second (by simp [Form.parts])
  | assign name operand | negate operand | complement operand | isVoid operand =>
    exact plain operand (by simp [Form.parts])
  | int | bool | string | new | noExpr | object => rfl

/-- **The checker restores its state**: scopes, index and depth are as before. -/
theorem typeExpr_state (consistent : s.vars.Consistent) (e : Expr) :
    (g.typeExpr s e).state = s := by
  have restores : g.Restores e := by
    induction e using Expr.parts_induction with
    | step line form ih =>
      intro s consistent
      rw [typeExpr]
      split
      · rfl
      · change (g.infer s.deeper line form).state.shallower = s
        have restored : (g.infer s.deeper line form).state = s.deeper :=
          infer_restores ih consistent
        rw [restored, CheckState.shallower_deeper]
  exact restores s consistent

/-! ## What is found in the parts -/

theorem typeItems_eq (consistent : s.vars.Consistent) (items : List Expr) :
    g.typeItems s items =
      ⟨items.map fun item => (g.typeExpr s item).type,
        items.map fun item => (g.typeExpr s item).node,
        items.flatMap fun item => (g.typeExpr s item).findings, s⟩ := by
  induction items with
  | nil => rfl
  | cons item rest ih =>
    rw [typeItems, typeExpr_state consistent, ih]
    rfl

theorem typeBranches_cons (consistent : s.vars.Consistent) (earlier : List Name)
    (joined : Option Name) (branch : Branch) (rest : List Branch) :
    g.typeBranches s earlier joined (branch :: rest) =
      let body := g.partOutcome s (.ofBranch branch)
      let after := g.typeBranches s (branch.type :: earlier)
        (some (g.joinBranch joined body.type)) rest
      ⟨after.type, body.node :: after.nodes,
        g.checkBranch branch.line earlier branch.name branch.type ++
          (body.findings ++ after.findings), after.state⟩ := by
  obtain ⟨line, name, type, body⟩ := branch
  rw [typeBranches, typeExpr_state (CheckState.consistent_enterWith consistent name type),
    CheckState.leave_enterWith consistent]
  rfl

theorem typeBranches_nodes (consistent : s.vars.Consistent) (earlier : List Name)
    (joined : Option Name) (branches : List Branch) :
    (g.typeBranches s earlier joined branches).nodes =
      branches.map fun branch => (g.partOutcome s (.ofBranch branch)).node := by
  induction branches generalizing earlier joined with
  | nil => rfl
  | cons branch rest ih =>
    rw [typeBranches_cons consistent, List.map_cons, ← ih]

theorem typeBranches_findings_part (consistent : s.vars.Consistent) {earlier : List Name}
    {joined : Option Name} {branches : List Branch} {branch : Branch} (mem : branch ∈ branches) :
    (g.partOutcome s (.ofBranch branch)).findings <:+:
      (g.typeBranches s earlier joined branches).findings := by
  induction branches generalizing earlier joined with
  | nil => exact absurd mem List.not_mem_nil
  | cons first rest ih =>
    rw [typeBranches_cons consistent]
    rcases List.mem_cons.mp mem with rfl | mem
    · exact List.infix_append' _ _ _
    · exact List.infix_append_of_infix_right (List.infix_append_of_infix_right (ih mem))

/-- Below an expression are the results for its parts. -/
theorem infer_below (consistent : s.vars.Consistent) (line : Nat) (form : Form) :
    (g.infer s line form).below = form.parts.map fun part => (g.partOutcome s part).node := by
  have restored := fun e => typeExpr_state (g := g) consistent e
  cases form with
  | dispatch receiver method args | staticDispatch receiver named method args =>
    rw [infer, restored, typeItems_eq consistent, Form.parts, List.map_cons, List.map_map]
    rfl
  | case scrutinee branches =>
    rw [infer, restored, Form.parts, List.map_cons, List.map_map]
    rw [typeBranches_nodes consistent]
    rfl
  | block items =>
    rw [infer, typeItems_eq consistent, Form.parts, List.map_map]
    rfl
  | letIn | cond | loop | binary =>
    simp only [infer, restored]
    rfl
  | assign | negate | complement | isVoid => rfl
  | int | bool | string | new | noExpr | object => rfl

theorem findings_flatMap_part {items : List Expr} {item : Expr} (mem : item ∈ items) :
    (g.typeExpr s item).findings <:+: items.flatMap fun item => (g.typeExpr s item).findings :=
  List.infix_of_mem_flatten (List.mem_map.mpr ⟨item, mem, rfl⟩)

/-- What is found in a part is one stretch of what is found in the expression. -/
theorem infer_findings_part (consistent : s.vars.Consistent) (line : Nat)
    (mem : part ∈ form.parts) :
    (g.partOutcome s part).findings <:+: (g.infer s line form).findings := by
  have restored := fun e => typeExpr_state (g := g) consistent e
  cases form with
  | dispatch receiver method args | staticDispatch receiver named method args =>
    rw [infer, restored, typeItems_eq consistent]
    rcases List.mem_cons.mp mem with rfl | mem
    · exact List.infix_append_left
    · obtain ⟨item, hitem, rfl⟩ := List.mem_map.mp mem
      refine List.infix_append_of_infix_right (List.infix_append_of_infix_left ?_)
      exact findings_flatMap_part hitem
  | case scrutinee branches =>
    rw [infer, restored]
    rcases List.mem_cons.mp mem with rfl | mem
    · exact List.infix_append_left
    · obtain ⟨branch, hbranch, rfl⟩ := List.mem_map.mp mem
      exact List.infix_append_of_infix_right (typeBranches_findings_part consistent hbranch)
  | block items =>
    obtain ⟨item, hitem, rfl⟩ := List.mem_map.mp mem
    rw [infer, typeItems_eq consistent]
    exact findings_flatMap_part hitem
  | letIn name type init body =>
    simp only [Form.parts, List.mem_cons, List.not_mem_nil, or_false] at mem
    rw [infer, restored]
    rcases mem with rfl | rfl
    · exact List.infix_append_left
    · exact List.infix_append_of_infix_right List.infix_append_right
  | cond predicate thenArm elseArm =>
    simp only [Form.parts, List.mem_cons, List.not_mem_nil, or_false] at mem
    simp only [infer, restored]
    rcases mem with rfl | rfl | rfl
    · exact List.infix_append_left
    · exact List.infix_append_of_infix_right (List.infix_append' _ _ _)
    · refine List.infix_append_of_infix_right (List.infix_append_of_infix_right ?_)
      exact List.infix_append_right
  | loop condition body =>
    simp only [Form.parts, List.mem_cons, List.not_mem_nil, or_false] at mem
    simp only [infer, restored]
    rcases mem with rfl | rfl
    · exact List.infix_append_left
    · exact List.infix_append_of_infix_right List.infix_append_right
  | binary op left right =>
    simp only [Form.parts, List.mem_cons, List.not_mem_nil, or_false] at mem
    simp only [infer, restored]
    rcases mem with rfl | rfl
    · exact List.infix_append_left
    · exact List.infix_append' _ _ _
  | assign name operand | negate operand | complement operand =>
    rw [List.mem_singleton.mp mem]
    exact List.infix_append_left
  | isVoid operand =>
    rw [List.mem_singleton.mp mem]
    exact List.infix_rfl
  | int | bool | string | new | noExpr | object => exact absurd mem List.not_mem_nil

end Setting

end SelfTyped
