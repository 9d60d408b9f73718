/-
SelfTyped.Proofs.SameRules — what the checker depends on.

Of its setting the checker consults five things: the class under
consideration, which classes there are, conformance, joins, and what a call
refers to.  Of its state it consults the depth and the variables in scope:
it looks a variable up, and it lists them all to suggest one, in whatever
order.  Two settings that agree in the five (`Setting.SameRules`) judge every
expression alike in two states with the same variables, given the outcomes
for its parts (`infer_agrees`).  If the nesting limits and the depths agree
too, so do the outcomes for whole expressions and features
(`typeExpr_agrees`, `typeFeature_agrees`).

An outcome ends in the state that it started in, so these statements are
equations: the outcome in one state is that in the other, ending in the
first.
-/
import SelfTyped.Proofs.ClassScope
import SelfTyped.Proofs.Suggestions

namespace SelfTyped

namespace Setting

variable {g g' : Setting} {s t : CheckState} {Γ : TypeEnv} {vars vars' : Variables} {line : Nat}
  {name type : Name}

/-- Two settings give the same answers to all that the rules ask. -/
structure SameRules (g g' : Setting) : Prop where
  current : g'.current = g.current
  isDefined : ∀ t, g'.hierarchy.isDefined t = g.hierarchy.isDefined t
  isSubclass : ∀ a b, g'.hierarchy.isSubclass g.current.name a b =
    g.hierarchy.isSubclass g.current.name a b
  joins : ∀ a b, g'.hierarchy.join g.current.name a b = g.hierarchy.join g.current.name a b
  resolve : ∀ start method, g'.methods.resolve? g'.hierarchy start method =
    g.methods.resolve? g.hierarchy start method

namespace SameRules

theorem refl (g : Setting) : g.SameRules g :=
  ⟨rfl, fun _ => rfl, fun _ _ => rfl, fun _ _ => rfl, fun _ _ => rfl⟩

variable (rules : g.SameRules g')

/-! ## Rules -/

include rules

theorem report : g'.report = g.report := by
  funext line error
  simp only [Setting.report, rules.current]

theorem require : g'.require = g.require := by
  funext condition line error
  simp only [Setting.require, rules.report]

theorem isDeclarable : g'.isDeclarable = g.isDeclarable := by
  funext t
  simp only [Setting.isDeclarable, rules.isDefined]

theorem conforms : g'.conforms = g.conforms := by
  funext a b
  simp only [Setting.conforms, rules.isDeclarable, rules.current, rules.isSubclass]

theorem join : g'.join = g.join := by
  funext a b
  simp only [Setting.join, rules.current, rules.joins]

theorem joinBranch : g'.joinBranch = g.joinBranch := by
  funext joined t
  simp only [Setting.joinBranch, rules.join]

theorem checkObject : g'.checkObject = g.checkObject := by
  funext vars line name
  simp only [Setting.checkObject, rules.report]

theorem checkAssign : g'.checkAssign = g.checkAssign := by
  funext vars line name t
  simp only [Setting.checkAssign, rules.report, rules.conforms]

theorem checkArgs : g'.checkArgs = g.checkArgs := by
  funext line method types
  simp only [Setting.checkArgs, rules.report, rules.require, rules.conforms]

theorem checkCall : g'.checkCall = g.checkCall := by
  funext line start method receiver types
  simp only [Setting.checkCall, rules.report, rules.checkArgs, rules.resolve]

theorem checkDispatch : g'.checkDispatch = g.checkDispatch := by
  funext line method receiver types
  simp only [Setting.checkDispatch, rules.current, rules.isDefined, rules.checkCall]

theorem checkStaticDispatch : g'.checkStaticDispatch = g.checkStaticDispatch := by
  funext line named method receiver types
  simp only [Setting.checkStaticDispatch, rules.report, rules.require, rules.isDefined,
    rules.conforms, rules.checkCall]

theorem checkBranch : g'.checkBranch = g.checkBranch := by
  funext line earlier name t
  simp only [Setting.checkBranch, rules.report, rules.require, rules.isDefined]

theorem checkLet : g'.checkLet = g.checkLet := by
  funext line name t init
  simp only [Setting.checkLet, rules.require, rules.isDeclarable, rules.conforms]

theorem checkBinary : g'.checkBinary = g.checkBinary := by
  funext line op left right
  simp only [Setting.checkBinary, rules.report, rules.require]

theorem checkNew : g'.checkNew = g.checkNew := by
  funext line t
  simp only [Setting.checkNew, rules.report, rules.isDeclarable]

theorem checkFormalType : g'.checkFormalType = g.checkFormalType := by
  funext f
  simp only [Setting.checkFormalType, rules.report, rules.require, rules.isDefined]

theorem bindFormal : g'.bindFormal = g.bindFormal := by
  funext state f
  simp only [Setting.bindFormal, rules.report, rules.checkFormalType]

end SameRules

/-! ## Variables -/

/-- What is suggested depends on the variables in scope only. -/
theorem mostRelated_visible (agrees : vars.Agrees Γ) {names : List Name}
    (listed : ∀ x, x ∈ names ↔ (Γ x).isSome = true) (name : Name) :
    mostRelated name (Scoped.visible vars) = mostRelated name names := by
  refine mostRelated_congr fun x => ?_
  rw [Scoped.mem_visible_iff agrees.consistent, agrees.lookup, listed]

theorem mostRelated_agrees (agrees : vars.Agrees Γ) (agrees' : vars'.Agrees Γ) (name : Name) :
    mostRelated name (Scoped.visible vars') = mostRelated name (Scoped.visible vars) := by
  refine mostRelated_visible agrees' (fun x => ?_) name
  rw [Scoped.mem_visible_iff agrees.consistent, agrees.lookup]

theorem checkObject_agrees (agrees : vars.Agrees Γ) (agrees' : vars'.Agrees Γ) :
    g.checkObject vars' line name = g.checkObject vars line name := by
  rw [checkObject, checkObject, agrees'.lookup, agrees.lookup,
    mostRelated_agrees agrees agrees']

theorem checkAssign_agrees (agrees : vars.Agrees Γ) (agrees' : vars'.Agrees Γ) :
    g.checkAssign vars' line name type = g.checkAssign vars line name type := by
  rw [checkAssign, checkAssign, agrees'.lookup, agrees.lookup,
    mostRelated_agrees agrees agrees']

/-! ## Expressions -/

theorem typeItems_agrees {items : List Expr} (consistent : s.vars.Consistent)
    (consistent' : t.vars.Consistent)
    (same : ∀ item ∈ items, g'.typeExpr t item = { g.typeExpr s item with state := t }) :
    g'.typeItems t items = { g.typeItems s items with state := t } := by
  rw [typeItems_eq consistent, typeItems_eq consistent', ItemsOutcome.mk.injEq]
  refine ⟨?_, ?_, ?_, rfl⟩
  · exact List.map_congr_left fun item mem => by rw [same item mem]
  · exact List.map_congr_left fun item mem => by rw [same item mem]
  · exact List.flatMap_congr fun item mem => by rw [same item mem]

theorem typeBranches_agrees (rules : g.SameRules g') {branches : List Branch}
    (consistent : s.vars.Consistent) (consistent' : t.vars.Consistent) (earlier : List Name)
    (joined : Option Name)
    (same : ∀ branch ∈ branches, g'.partOutcome t (.ofBranch branch) =
      { g.partOutcome s (.ofBranch branch) with state := t.under (Part.ofBranch branch).binder }) :
    g'.typeBranches t earlier joined branches =
      { g.typeBranches s earlier joined branches with state := t } := by
  induction branches generalizing earlier joined with
  | nil => rfl
  | cons branch rest ih =>
    have first := same branch List.mem_cons_self
    have others := fun earlier joined =>
      ih earlier joined fun other mem => same other (List.mem_cons_of_mem branch mem)
    rw [typeBranches_cons consistent, typeBranches_cons consistent']
    simp only [first, others, rules.joinBranch, rules.checkBranch]

/-- **The same rules judge an expression alike** in states with the same variables, if they judge
its parts alike. -/
theorem infer_agrees (rules : g.SameRules g') (agrees : s.vars.Agrees Γ)
    (agrees' : t.vars.Agrees Γ) (line : Nat) {form : Form}
    (same : ∀ part ∈ form.parts,
      g'.partOutcome t part = { g.partOutcome s part with state := t.under part.binder }) :
    g'.infer t line form = { g.infer s line form with state := t } := by
  have consistent := agrees.consistent
  have consistent' := agrees'.consistent
  have restored := fun e => typeExpr_state (g := g) consistent e
  have plain : ∀ e, .plain e ∈ form.parts →
      g'.typeExpr t e = { g.typeExpr s e with state := t } := fun e mem => same (.plain e) mem
  cases form with
  | dispatch receiver method args | staticDispatch receiver named method args =>
    have items : g'.typeItems t args = { g.typeItems s args with state := t } := by
      refine typeItems_agrees consistent consistent' fun item mem => plain item ?_
      exact List.mem_cons_of_mem _ (List.mem_map_of_mem mem)
    simp only [infer, plain receiver List.mem_cons_self, restored, items, rules.checkDispatch,
      rules.checkStaticDispatch]
  | case scrutinee branches =>
    have items : g'.typeBranches t [] none branches =
        { g.typeBranches s [] none branches with state := t } := by
      refine typeBranches_agrees rules consistent consistent' [] none fun branch mem => same _ ?_
      exact List.mem_cons_of_mem _ (List.mem_map_of_mem mem)
    simp only [infer, plain scrutinee List.mem_cons_self, restored, items]
  | block items =>
    have items : g'.typeItems t items = { g.typeItems s items with state := t } :=
      typeItems_agrees consistent consistent' fun item mem =>
        plain item (List.mem_map_of_mem mem)
    simp only [infer, items]
  | letIn name type init body =>
    have opened : g'.typeExpr (t.enterWith name type) body =
        { g.typeExpr (s.enterWith name type) body with state := t.enterWith name type } :=
      same ⟨some (name, type), body⟩ (by simp [Form.parts])
    simp only [infer, plain init (by simp [Form.parts]), restored, opened, rules.checkLet,
      CheckState.leave_enterWith consistent']
  | cond predicate thenArm elseArm =>
    simp only [infer, plain predicate (by simp [Form.parts]),
      plain thenArm (by simp [Form.parts]), plain elseArm (by simp [Form.parts]), restored,
      rules.join, rules.require]
  | loop first second | binary op first second =>
    simp only [infer, plain first (by simp [Form.parts]), plain second (by simp [Form.parts]),
      restored, rules.require, rules.checkBinary]
  | assign name operand =>
    simp only [infer, plain operand (by simp [Form.parts]), restored, rules.checkAssign,
      checkAssign_agrees agrees agrees']
  | negate operand | complement operand | isVoid operand =>
    simp only [infer, plain operand (by simp [Form.parts]), rules.require]
  | object name =>
    simp only [infer, Inference.leaf, rules.checkObject, checkObject_agrees agrees agrees']
  | new => simp only [infer, Inference.leaf, rules.checkNew]
  | int | bool | string | noExpr => rfl

/-- In one state the same rules judge an expression alike if its parts have the same outcomes. -/
theorem infer_congr (rules : g.SameRules g') (consistent : s.vars.Consistent) (line : Nat)
    {form : Form} (same : ∀ part ∈ form.parts, g'.partOutcome s part = g.partOutcome s part) :
    g'.infer s line form = g.infer s line form := by
  have agrees : s.vars.Agrees (Scoped.lookup s.vars) := ⟨consistent, fun _ => rfl⟩
  have restored : ∀ e t, t.vars.Consistent → { g.typeExpr t e with state := t } = g.typeExpr t e :=
    fun e t consistent => congrArg (Outcome.mk _ _ _) (typeExpr_state consistent e).symm
  have state : (g.infer s line form).state = s :=
    infer_restores (fun part _ t consistent => typeExpr_state consistent part.expr) consistent
  refine (infer_agrees rules agrees agrees line fun part mem => ?_).trans
    (congrArg (Inference.mk _ _ _) state.symm)
  rw [same part mem]
  exact (restored part.expr _ (CheckState.consistent_under consistent part.binder)).symm

/-- **The outcome for an expression depends on the rules, the limit, the variables in scope and the
depth only.** -/
theorem typeExpr_agrees (rules : g.SameRules g') (limit : g'.maxDepth = g.maxDepth)
    (agrees : s.vars.Agrees Γ) (agrees' : t.vars.Agrees Γ) (depth : t.depth = s.depth) (e : Expr) :
    g'.typeExpr t e = { g.typeExpr s e with state := t } := by
  induction e using Expr.parts_induction generalizing s t Γ with
  | step line form ih =>
    have deeper : s.deeper.vars.Agrees Γ := agrees
    have deeper' : t.deeper.vars.Agrees Γ := agrees'
    have below : g'.infer t.deeper line form =
        { g.infer s.deeper line form with state := t.deeper } := by
      refine infer_agrees rules deeper deeper' line fun part mem => ?_
      refine ih part mem (agrees_under deeper part.binder) (agrees_under deeper' part.binder) ?_
      simp [depth]
    rw [typeExpr, typeExpr, below]
    simp only [limit, depth, cutOff, rules.report]
    split <;> rfl

/-! ## Features -/

/-- The same rules judge a feature alike if its initializer or body has the same outcome. -/
theorem typeFeature_of_root (rules : g.SameRules g') (f : Feature)
    (same : g'.typeExpr (g.featureState s f) f.root = g.typeExpr (g.featureState s f) f.root) :
    g'.typeFeature s f = g.typeFeature s f := by
  cases f with
  | attr a =>
    have init : g'.typeExpr s a.init = g.typeExpr s a.init := same
    simp only [typeFeature, typeAttribute, init, rules.require, rules.isDeclarable,
      rules.conforms]
  | method m =>
    have body : g'.typeExpr (m.formals.foldl g.bindFormal (s.enter, [])).1 m.body =
        g.typeExpr (m.formals.foldl g.bindFormal (s.enter, [])).1 m.body := same
    simp only [typeFeature, typeMethod, rules.bindFormal, body, rules.require,
      rules.isDeclarable, rules.conforms]

/-- The same is found in the formal parameters of a method. -/
theorem bindFormals_agrees (agrees : s.vars.Agrees Γ) (agrees' : t.vars.Agrees Γ)
    (formals : List Formal) :
    (formals.foldl g.bindFormal (t.enter, [])).2 =
      (formals.foldl g.bindFormal (s.enter, [])).2 := by
  induction formals using List.reverseRecOn with
  | nil => rfl
  | append_singleton before f ih =>
    have here := (bindsFormals_foldl (g := g) agrees before).here f.name
    have here' := (bindsFormals_foldl (g := g) agrees' before).here f.name
    rw [List.foldl_append, List.foldl_append, List.foldl_cons, List.foldl_cons, List.foldl_nil,
      List.foldl_nil, bindFormal, bindFormal, ih]
    split
    · rfl
    · next notSelf =>
      rw [Bool.eq_iff_iff.mpr ((here' notSelf).trans (here notSelf).symm)]
      split <;> rfl

/-- The outcome for a feature depends on the rules, the limit, the variables in scope and the depth
only. -/
theorem typeFeature_agrees (rules : g.SameRules g') (limit : g'.maxDepth = g.maxDepth)
    (agrees : s.vars.Agrees Γ) (agrees' : t.vars.Agrees Γ) (depth : t.depth = s.depth)
    (f : Feature) : g'.typeFeature t f = { g.typeFeature s f with state := t } := by
  have restored := typeFeature_state (g := g') agrees' f
  cases f with
  | attr a =>
    have init := typeExpr_agrees rules limit agrees agrees' depth a.init
    simp only [typeFeature, typeAttribute, init, rules.require, rules.isDeclarable,
      rules.conforms]
  | method m =>
    have binds := bindsFormals_foldl (g := g) agrees m.formals
    have binds' := bindsFormals_foldl (g := g) agrees' m.formals
    have levels := binds'.depth.trans (depth.trans binds.depth.symm)
    have body := typeExpr_agrees rules limit binds.agrees binds'.agrees levels m.body
    have formals := bindFormals_agrees (g := g) agrees agrees' m.formals
    simp only [typeFeature, typeMethod, rules.bindFormal, body, formals, rules.require,
      rules.isDeclarable, rules.conforms] at restored ⊢
    rw [restored]

theorem typeFeature_congr (rules : g.SameRules g') (limit : g'.maxDepth = g.maxDepth)
    (agrees : s.vars.Agrees Γ) (f : Feature) : g'.typeFeature s f = g.typeFeature s f :=
  (typeFeature_agrees rules limit agrees agrees rfl f).trans
    (congrArg (FeatureOutcome.mk _ _) (typeFeature_state agrees f).symm)

/-- **What is found in the features of a class depends on the variables of the class**, not on how
they are kept. -/
theorem typeFeatures_agrees (agrees : s.vars.Agrees Γ) (agrees' : t.vars.Agrees Γ)
    (depth : t.depth = s.depth) (features : List Feature) :
    g.typeFeatures t features = { g.typeFeatures s features with state := t } := by
  have same := fun f => typeFeature_agrees (SameRules.refl g) rfl agrees agrees' depth f
  rw [typeFeatures_eq agrees, typeFeatures_eq agrees', ClassOutcome.mk.injEq]
  refine ⟨?_, ?_, rfl⟩
  · exact List.map_congr_left fun f _ => by rw [same f]
  · exact List.flatMap_congr fun f _ => by rw [same f]

end Setting

end SelfTyped
