/-
SelfTyped.Proofs.Exactness — the checker computes the typing relation.

Rule by rule the checks on types decide the relation; here the rules are
put together along an expression.  One step is `infer_rule` and
`infer_eq_nil`: if the scopes bind the variables of an environment, the
type inferred from the parts is the one that the rule gives, and nothing is
found exactly if nothing is found in the parts and the side condition
holds.  Induction over parts takes this to whole expressions
(`typeExpr_hasType`, `typeExpr_eq_nil`).

A run checks every node of a program once.  `typing_exact` is about these
calls: every node above the nesting limit is recorded with its one type,
and what is found while it is checked, one stretch of what the run finds,
is empty exactly if the rules are kept below it.
-/
import SelfTyped.Proofs.ClassScope
import SelfTyped.Proofs.RuleCheck
import SelfTyped.Typing.Analysis

namespace SelfTyped

namespace Setting

variable {g : Setting} {s : CheckState} {Γ : TypeEnv} {line : Nat} {form : Form}

/-- The types of parts in a state. -/
def partType (g : Setting) (s : CheckState) (part : Part) : Name :=
  (g.partOutcome s part).type

theorem map_partType_plain (g : Setting) (s : CheckState) (items : List Expr) :
    (items.map Part.plain).map (g.partType s) = items.map fun item => (g.typeExpr s item).type := by
  rw [List.map_map]
  rfl

/-! ## Branches -/

/-- The type of a list of branches is the join of the types of their bodies. -/
theorem typeBranches_joinsFrom (proper : g.Proper) (consistent : s.vars.Consistent)
    (earlier : List Name) (a : Name) (branches : List Branch) :
    ∃ t, (g.typeBranches s earlier (some a) branches).type = some t ∧
      g.hierarchy.JoinsFrom g.current.name a
        ((branches.map Part.ofBranch).map (g.partType s)) t := by
  induction branches generalizing earlier a with
  | nil => exact ⟨a, rfl, .nil⟩
  | cons branch rest ih =>
    rw [typeBranches_cons consistent]
    obtain ⟨t, htype, joins⟩ := ih (branch.type :: earlier)
      (g.join a (g.partType s (.ofBranch branch)))
    exact ⟨t, htype, .cons (join_joins proper a _) joins⟩

theorem typeBranches_joinsAll (proper : g.Proper) (consistent : s.vars.Consistent)
    (branches : List Branch) :
    g.hierarchy.JoinsAll g.current.name ((branches.map Part.ofBranch).map (g.partType s))
      ((g.typeBranches s [] none branches).type.getD Known.object) := by
  cases branches with
  | nil => exact .none
  | cons branch rest =>
    rw [typeBranches_cons consistent]
    obtain ⟨t, htype, joins⟩ := typeBranches_joinsFrom proper consistent [branch.type]
      (g.partType s (.ofBranch branch)) rest
    have type_eq : (g.typeBranches s [branch.type]
      (some (g.joinBranch none (g.partOutcome s (.ofBranch branch)).type)) rest).type = some t :=
      htype
    simp only [type_eq, Option.getD_some]
    exact .some joins

theorem typeBranches_eq_nil (proper : g.Proper) (consistent : s.vars.Consistent)
    (earlier : List Name) (joined : Option Name) (branches : List Branch) :
    (g.typeBranches s earlier joined branches).findings = [] ↔
      (∀ branch ∈ branches, (g.partOutcome s (.ofBranch branch)).findings = []) ∧
        ((branches.map Branch.type).Nodup ∧ (∀ branch ∈ branches, branch.type ∉ earlier)) ∧
          (∀ branch ∈ branches, branch.name ≠ Known.self) ∧
            ∀ branch ∈ branches, g.hierarchy.isDefined branch.type = true := by
  induction branches generalizing earlier joined with
  | nil => simp [typeBranches]
  | cons branch rest ih =>
    rw [typeBranches_cons consistent]
    simp only [List.append_eq_nil_iff, checkBranch_eq_nil proper, ih, List.forall_mem_cons,
      List.map_cons, List.nodup_cons, List.mem_map, not_exists, not_and]
    simp only [List.mem_cons, not_or]
    constructor
    · rintro ⟨⟨fresh, notSelf, known⟩, silent, others, ⟨distinct, apart⟩, notSelfs, knowns⟩
      refine ⟨⟨silent, others⟩, ⟨⟨fun other mem => (apart other mem).1, distinct⟩, fresh, ?_⟩,
        ⟨notSelf, notSelfs⟩, known, knowns⟩
      exact fun other mem => (apart other mem).2
    · rintro ⟨⟨silent, others⟩, ⟨⟨differ, distinct⟩, fresh, apart⟩, ⟨notSelf, notSelfs⟩, known,
        knowns⟩
      exact ⟨⟨fresh, notSelf, known⟩, silent, others,
        ⟨distinct, fun other mem => ⟨differ other mem, apart other mem⟩⟩, notSelfs, knowns⟩

/-! ## One step -/

/-- **The inferred type is the one that the rule gives.** -/
theorem infer_rule (proper : g.Proper) (agrees : s.vars.Agrees Γ) (line : Nat) (form : Form) :
    Rule g.hierarchy g.current.name Γ form (form.parts.map (g.partType s))
      (g.infer s line form).type := by
  have restored := fun e => typeExpr_state (g := g) agrees.consistent e
  cases form with
  | object name => exact checkObject_rule agrees.lookup
  | assign name value =>
    rw [infer, restored]
    exact checkAssign_rule proper agrees.lookup name value
  | dispatch => exact .dispatch (checkDispatch_type proper)
  | staticDispatch => exact .staticDispatch (checkStaticDispatch_type proper)
  | cond predicate thenArm elseArm =>
    simp only [infer, restored]
    exact .cond (join_joins proper _ _)
  | loop condition body => exact .loop
  | case scrutinee branches =>
    rw [infer, restored]
    exact .case (typeBranches_joinsAll proper agrees.consistent branches)
  | block items =>
    rw [infer, typeItems_eq agrees.consistent]
    rw [← map_partType_plain]
    exact .block
  | letIn name type init body =>
    simp only [infer, restored]
    exact .letIn
  | binary op left right =>
    simp only [infer, restored]
    exact checkBinary_rule op left right
  | new type => exact checkNew_rule type
  | negate | complement | int | bool | string | isVoid | noExpr => constructor

/-- **Nothing is found in an expression exactly if nothing is found in its parts and the side
condition holds.** -/
theorem infer_eq_nil (proper : g.Proper) (agrees : s.vars.Agrees Γ) (line : Nat) (form : Form) :
    (g.infer s line form).findings = [] ↔
      (∀ part ∈ form.parts, (g.partOutcome s part).findings = []) ∧
        SideCondition g.hierarchy g.current.name Γ form (form.parts.map (g.partType s)) := by
  have restored := fun e => typeExpr_state (g := g) agrees.consistent e
  have plain : ∀ e, g.partOutcome s (.plain e) = g.typeExpr s e := fun _ => rfl
  cases form with
  | object name =>
    rw [infer, Inference.leaf, checkObject_eq_nil agrees.lookup]
    simp [Form.parts]
  | assign name value =>
    rw [infer, restored, List.append_eq_nil_iff, checkAssign_eq_nil proper agrees.lookup name value]
    simp [Form.parts, plain, partType]
  | dispatch receiver method args =>
    rw [infer, restored, typeItems_eq agrees.consistent, List.append_eq_nil_iff,
      List.append_eq_nil_iff, List.flatMap_eq_nil_iff, checkDispatch_eq_nil proper, Form.parts,
      List.map_cons, SideCondition.dispatch_iff, map_partType_plain, List.forall_mem_cons,
      List.forall_mem_map, plain, and_assoc]
    rfl
  | staticDispatch receiver named method args =>
    rw [infer, restored, typeItems_eq agrees.consistent, List.append_eq_nil_iff,
      List.append_eq_nil_iff, List.flatMap_eq_nil_iff, checkStaticDispatch_eq_nil proper,
      Form.parts, List.map_cons, SideCondition.staticDispatch_iff, map_partType_plain,
      List.forall_mem_cons, List.forall_mem_map, plain, and_assoc]
    rfl
  | cond predicate thenArm elseArm =>
    simp only [infer, restored, Form.parts, List.map_cons, List.map_nil, List.append_eq_nil_iff,
      require_eq_nil, beq_iff_eq, List.forall_mem_cons, plain, SideCondition.cond_iff, partType]
    simp only [List.not_mem_nil, false_implies, implies_true, and_true]
    tauto
  | loop condition body =>
    simp only [infer, restored, Form.parts, List.map_cons, List.map_nil, List.append_eq_nil_iff,
      require_eq_nil, beq_iff_eq, List.forall_mem_cons, plain, SideCondition.loop_iff, partType]
    simp only [List.not_mem_nil, false_implies, implies_true, and_true]
    tauto
  | case scrutinee branches =>
    rw [infer, restored, List.append_eq_nil_iff, typeBranches_eq_nil proper agrees.consistent,
      SideCondition.case_iff, Form.parts, List.forall_mem_cons, List.forall_mem_map, plain]
    simp [and_assoc]
  | block items =>
    rw [infer, typeItems_eq agrees.consistent, List.flatMap_eq_nil_iff, Form.parts,
      List.forall_mem_map]
    exact ⟨fun silent => ⟨silent, .block⟩, fun both => both.1⟩
  | letIn name type init body =>
    have fits : (∀ a, (if init.isMissing then none else some (g.typeExpr s init).type) = some a →
          g.hierarchy.Conforms g.current.name a type) ↔
        (init.form ≠ .noExpr →
          g.hierarchy.Conforms g.current.name (g.typeExpr s init).type type) := by
      rw [← Expr.isMissing_eq_false_iff]
      cases init.isMissing <;> simp
    simp only [infer, restored, Form.parts, List.map_cons, List.map_nil, List.append_eq_nil_iff,
      List.forall_mem_cons, plain, partType, checkLet_eq_nil proper, SideCondition.letIn_iff, fits]
    simp only [List.not_mem_nil, false_implies, implies_true, and_true, partOutcome,
      CheckState.under_some]
    tauto
  | binary op left right =>
    simp only [infer, restored, Form.parts, List.map_cons, List.map_nil, List.append_eq_nil_iff,
      List.forall_mem_cons, plain, partType]
    rw [checkBinary_eq_nil Γ op left right]
    simp [and_assoc]
  | negate operand =>
    simp [infer, restored, Form.parts, require_eq_nil, plain, SideCondition.negate_iff, partType]
  | complement operand =>
    simp [infer, restored, Form.parts, require_eq_nil, plain, SideCondition.complement_iff,
      partType]
  | new type =>
    rw [infer, Inference.leaf, checkNew_eq_nil Γ type]
    simp [Form.parts]
  | isVoid operand =>
    simp only [infer, Form.parts, List.map_cons, List.map_nil, List.forall_mem_cons, plain]
    exact ⟨fun silent => ⟨⟨silent, by simp⟩, .isVoid⟩, fun both => both.1.1⟩
  | int value | bool value | string value | noExpr =>
    refine ⟨fun _ => ⟨fun part mem => absurd mem List.not_mem_nil, ?_⟩, fun _ => rfl⟩
    constructor

/-! ## Whole expressions -/

theorem typeExpr_of_lt (deep : s.depth < g.maxDepth) (line : Nat) (form : Form) :
    g.typeExpr s ⟨line, form⟩ = (g.infer s.deeper line form).finish ⟨line, form⟩ := by
  rw [typeExpr, if_neg (Nat.not_le.mpr deep)]

/-- **The checker gives an expression its type.** -/
theorem typeExpr_hasType (proper : g.Proper) (agrees : s.vars.Agrees Γ) {e : Expr}
    (within : e.Within g.maxDepth s.depth) :
    HasType g.hierarchy g.current.name Γ e (g.typeExpr s e).type := by
  induction e using Expr.parts_induction generalizing s Γ with
  | step line form ih =>
    obtain ⟨deep, below⟩ := Expr.within_iff.mp within
    have agrees : s.deeper.vars.Agrees Γ := agrees
    rw [typeExpr_of_lt deep]
    refine .node (g.partType s.deeper) (fun part mem => ?_) (infer_rule proper agrees line form)
    refine ih part mem (agrees_under agrees part.binder) ?_
    rw [CheckState.under_depth, CheckState.deeper_depth]
    exact below part mem

/-- **The checker finds nothing exactly if the rules are kept.** -/
theorem typeExpr_eq_nil (proper : g.Proper) (agrees : s.vars.Agrees Γ) {e : Expr}
    (within : e.Within g.maxDepth s.depth) :
    (g.typeExpr s e).findings = [] ↔ RulesKept g.hierarchy g.current.name Γ e := by
  induction e using Expr.parts_induction generalizing s Γ with
  | step line form ih =>
    obtain ⟨deep, below⟩ := Expr.within_iff.mp within
    have agrees : s.deeper.vars.Agrees Γ := agrees
    have inParts : ∀ part ∈ form.parts,
        part.expr.Within g.maxDepth (s.deeper.under part.binder).depth := by
      intro part mem
      rw [CheckState.under_depth, CheckState.deeper_depth]
      exact below part mem
    have opened : ∀ part : Part, (s.deeper.under part.binder).vars.Agrees (Γ.under part.binder) :=
      fun part => agrees_under agrees part.binder
    -- the types of the parts are those that the checker gives them
    have side : SideCondition g.hierarchy g.current.name Γ form
          (form.parts.map (g.partType s.deeper)) ↔
        ∀ types, (∀ part ∈ form.parts, HasType g.hierarchy g.current.name
            (Γ.under part.binder) part.expr (types part)) →
          SideCondition g.hierarchy g.current.name Γ form (form.parts.map types) := by
      have typed : ∀ part ∈ form.parts, HasType g.hierarchy g.current.name (Γ.under part.binder)
          part.expr (g.partType s.deeper part) :=
        fun part mem => typeExpr_hasType proper (opened part) (inParts part mem)
      constructor
      · intro side types typed'
        rw [List.map_congr_left fun part mem =>
          (typed' part mem).unique proper.rooted (typed part mem)]
        exact side
      · intro side
        exact side _ typed
    rw [typeExpr_of_lt deep, rulesKept_iff, ← side, and_comm]
    refine (infer_eq_nil proper agrees line form).trans (and_congr_left fun _ => ?_)
    exact forall₂_congr fun part mem => ih part mem (opened part) (inParts part mem)

end Setting

/-! ## Nodes -/

namespace Typed

/-- The type found for an expression. -/
def type : Typed → Name
  | .reached _ type _ => type
  | .cut _ type => type

/-- The results for the parts of an expression. -/
def parts : Typed → List Typed
  | .reached _ _ below => below
  | .cut _ _ => []

/-- The result that a path of part numbers leads to. -/
def sub? (node : Typed) : List Nat → Option Typed
  | [] => some node
  | i :: path => node.parts[i]?.bind fun part => part.sub? path

end Typed

namespace Setting

variable {g : Setting} {s : CheckState} {Γ : TypeEnv}

theorem typeExpr_node_type (g : Setting) (s : CheckState) (e : Expr) :
    (g.typeExpr s e).node.type = (g.typeExpr s e).type := by
  obtain ⟨line, form⟩ := e
  rw [typeExpr]
  split <;> rfl

/-- The result for a node below an expression is found in that for one of its parts. -/
theorem typeExpr_sub?_cons (deep : s.depth < g.maxDepth) (consistent : s.vars.Consistent)
    {line i : Nat} {form : Form} {part : Part} (hpart : form.parts[i]? = some part)
    (path : List Nat) :
    (g.typeExpr s ⟨line, form⟩).node.sub? (i :: path) =
      (g.partOutcome s.deeper part).node.sub? path := by
  have consistent : s.deeper.vars.Consistent := consistent
  rw [typeExpr_of_lt deep]
  change (g.infer s.deeper line form).below[i]?.bind (fun part => part.sub? path) = _
  rw [infer_below consistent, List.getElem?_map, hpart]
  rfl

/-- The checker comes to every node above the nesting limit with the variables in scope there.
What it finds is recorded under the path of the node. -/
theorem typeExpr_at (agrees : s.vars.Agrees Γ) {e node : Expr} {path : List Nat}
    {binders : List (Name × Name)} (found : e.at? path = some (binders, node))
    (shallow : s.depth + path.length < g.maxDepth) :
    ∃ inside : CheckState, inside.vars.Agrees (Γ.bindAll binders) ∧
      inside.depth = s.depth + path.length ∧
      (g.typeExpr s e).node.sub? path = some (g.typeExpr inside node).node ∧
      (g.typeExpr inside node).findings <:+: (g.typeExpr s e).findings := by
  induction path generalizing e s Γ binders with
  | nil =>
    rw [Expr.at?, Option.some.injEq, Prod.mk.injEq] at found
    obtain ⟨rfl, rfl⟩ := found
    exact ⟨s, agrees, rfl, rfl, List.infix_rfl⟩
  | cons i path ih =>
    obtain ⟨line, form⟩ := e
    obtain ⟨part, inner, hpart, hnode, rfl⟩ := Expr.at?_cons.mp found
    rw [List.length_cons] at shallow
    have deep : s.depth < g.maxDepth := by omega
    have agrees : s.deeper.vars.Agrees Γ := agrees
    obtain ⟨inside, agrees', hdepth, recorded, stretch⟩ :=
      ih (agrees_under agrees part.binder) hnode
        (by rw [CheckState.under_depth, CheckState.deeper_depth]; omega)
    refine ⟨inside, ?_, ?_, ?_, ?_⟩
    · rw [TypeEnv.bindAll_under]
      exact agrees'
    · rw [hdepth, CheckState.under_depth, CheckState.deeper_depth, List.length_cons]
      omega
    · rw [typeExpr_sub?_cons deep agrees.consistent hpart]
      exact recorded
    · rw [typeExpr_of_lt deep]
      exact stretch.trans
        (infer_findings_part agrees.consistent line (List.mem_of_getElem? hpart))

end Setting

/-! ## Runs -/

/-- The result for a node of a feature: the number of its class, that of the feature, and the path
in the initializer or body. -/
def Analysis.node? (a : Analysis) (i j : Nat) (path : List Nat) : Option Typed :=
  a.classes[i]?.bind fun c => c.features[j]?.bind fun f => f.node.sub? path

/-- The variables in scope at a node of a feature, given the binders on the way to it. -/
def TypeEnv.atNode (h : Hierarchy) (c : Class) (f : Feature) (binders : List (Name × Name)) :
    TypeEnv :=
  (ofFeature h (ClassSignature.ofClass c) f).bindAll binders

namespace Program

variable {p : Program} {h : Hierarchy} {maxDepth i j : Nat} {c : Class} {f : Feature}

/-- The setting in which a class of a program is checked. -/
def setting (h : Hierarchy) (maxDepth : Nat) (c : Class) : Setting :=
  ⟨h, (MethodTable.build h).1, ClassSignature.ofClass c, maxDepth⟩

/-- The state in which a class of a program is checked. -/
def classState (h : Hierarchy) (c : Class) : CheckState :=
  ⟨(Variables.ofClass h (ClassSignature.ofClass c)).1, 0⟩

theorem setting_proper (built : Hierarchy.build p = .ok h) (hc : c ∈ p.classes) :
    (setting h maxDepth c).Proper where
  rooted := Hierarchy.build_rooted built
  owned := build_owned built
  methods := rfl
  known := by
    obtain ⟨-, rfl⟩ := Hierarchy.build_eq_ok_iff.mp built
    exact Hierarchy.isDefined_of_mem (Hierarchy.ofClass_mem_declared hc)

theorem classState_agrees (h : Hierarchy) (c : Class) :
    (classState h c).vars.Agrees (TypeEnv.ofClass h (ClassSignature.ofClass c)) :=
  agrees_ofClass h (ClassSignature.ofClass c)

theorem typeClass_features (h : Hierarchy) (maxDepth : Nat) (c : Class) :
    (typeClass h (MethodTable.build h).1 maxDepth c).1.features =
      c.features.map fun f =>
        ⟨f, ((setting h maxDepth c).typeFeature (classState h c) f).node⟩ := by
  change ((setting h maxDepth c).typeFeatures (classState h c) c.features).features = _
  rw [Setting.typeFeatures_eq (classState_agrees h c)]

theorem typeClass_findings_part (maxDepth : Nat) (hf : f ∈ c.features) :
    ((setting h maxDepth c).typeFeature (classState h c) f).findings <:+:
      (typeClass h (MethodTable.build h).1 maxDepth c).2 := by
  have all : (typeClass h (MethodTable.build h).1 maxDepth c).2 =
      (Variables.ofClass h (ClassSignature.ofClass c)).2 ++
        ((setting h maxDepth c).typeFeatures (classState h c) c.features).findings := rfl
  rw [all, Setting.typeFeatures_eq (classState_agrees h c)]
  refine List.infix_append_of_infix_right (List.infix_of_mem_flatten ?_)
  exact List.mem_map.mpr ⟨f, hf, rfl⟩

/-- What a run records for a feature is the result of checking it. -/
theorem typeIn_node? (hc : p.classes[i]? = some c) (hf : c.features[j]? = some f)
    (path : List Nat) :
    (p.typeIn h maxDepth).node? i j path =
      ((setting h maxDepth c).typeFeature (classState h c) f).node.sub? path := by
  have classes : (p.typeIn h maxDepth).classes =
      p.classes.map fun c => (typeClass h (MethodTable.build h).1 maxDepth c).1 := List.map_map
  rw [Analysis.node?, classes, List.getElem?_map, hc, Option.map_some, Option.bind_some,
    typeClass_features, List.getElem?_map, hf]
  rfl

/-- What is found in a feature is one stretch of what the run finds. -/
theorem typeIn_findings_part (hc : c ∈ p.classes) (hf : f ∈ c.features) :
    ((setting h maxDepth c).typeFeature (classState h c) f).findings <:+:
      (p.typeIn h maxDepth).findings := by
  have all : (p.typeIn h maxDepth).findings = (MethodTable.build h).2 ++
      (p.classes.map (typeClass h (MethodTable.build h).1 maxDepth)).flatMap (·.2) := rfl
  rw [all, List.flatMap_map]
  refine (typeClass_findings_part maxDepth hf).trans
    (List.infix_append_of_infix_right (List.infix_of_mem_flatten ?_))
  exact List.mem_map.mpr ⟨c, hc, rfl⟩

/-- **The checker computes exactly the typing relation.**  At every expression of a program no
node of which is at the nesting limit, the checker is called in a state that binds the variables
in scope there.  It returns the one type of the expression and records it there, and it reports
nothing meanwhile exactly if the rules are kept at every node of the expression. -/
theorem typing_exact {path : List Nat} {binders : List (Name × Name)} {e : Expr}
    (built : Hierarchy.build p = .ok h) (hc : p.classes[i]? = some c)
    (hf : c.features[j]? = some f) (he : f.root.at? path = some (binders, e))
    (within : e.Within maxDepth path.length) :
    ∃ s : CheckState, s.vars.Agrees (TypeEnv.atNode h c f binders) ∧ s.depth = path.length ∧
      let outcome := (setting h maxDepth c).typeExpr s e
      outcome.state = s ∧
      (∃ below, outcome.node = .reached e outcome.type below) ∧
      (p.typeIn h maxDepth).node? i j path = some outcome.node ∧
      outcome.findings <:+: (p.typeIn h maxDepth).findings ∧
      (∀ t, HasType h c.name (TypeEnv.atNode h c f binders) e t ↔ outcome.type = t) ∧
      (outcome.findings = [] ↔ RulesKept h c.name (TypeEnv.atNode h c f binders) e) := by
  have mem := List.mem_of_getElem? hc
  have proper : (setting h maxDepth c).Proper := setting_proper built mem
  have shallow : path.length < maxDepth := by
    obtain ⟨line, form⟩ := e
    exact (Expr.within_iff.mp within).1
  have inClass := classState_agrees h c
  have start := Setting.featureState_depth (g := setting h maxDepth c) inClass f
  have atRoot : (classState h c).depth = 0 := rfl
  obtain ⟨s, agrees, depth, recorded, stretch⟩ :=
    Setting.typeExpr_at (g := setting h maxDepth c) (Setting.featureState_agrees inClass f) he
      (by rw [start, atRoot, Nat.zero_add]; exact shallow)
  rw [start, atRoot, Nat.zero_add] at depth
  have within' : e.Within (setting h maxDepth c).maxDepth s.depth := by
    rw [depth]
    exact within
  refine ⟨s, agrees, depth, Setting.typeExpr_state agrees.consistent e, ?_, ?_, ?_, ?_, ?_⟩
  · obtain ⟨line, form⟩ := e
    rw [Setting.typeExpr_of_lt (Expr.within_iff.mp within').1]
    exact ⟨_, rfl⟩
  · rw [typeIn_node? hc hf, Setting.typeFeature_node]
    exact recorded
  · exact stretch.trans ((Setting.typeFeature_findings_part _ _ f).trans
      (typeIn_findings_part mem (List.mem_of_getElem? hf)))
  · intro t
    have typed := Setting.typeExpr_hasType proper agrees within'
    constructor
    · intro other
      exact typed.unique proper.rooted other
    · rintro rfl
      exact typed
  · exact Setting.typeExpr_eq_nil proper agrees within'

/-- A call on the variable `y`, with an attribute as argument. -/
def callInLet : Expr :=
  ⟨5, .dispatch ⟨5, .object "y"⟩ "main" [⟨5, .object "value"⟩]⟩

/-- A method that binds `y` around `callInLet`. -/
def methodWithLet : Feature :=
  .method ⟨4, "main", [⟨4, "x", "Int"⟩], "SELF_TYPE",
    ⟨5, .letIn "y" "Main" ⟨5, .object "self"⟩ callInLet⟩⟩

/-- A class with the attribute `value` and `methodWithLet`. -/
def classWithLet : Class :=
  ⟨2, "Main", "IO", "let.cl", [.attr ⟨3, "value", "Int", ⟨3, .int 1⟩⟩, methodWithLet]⟩

/-- The call has the type of its receiver and keeps the rules. -/
theorem typing_exact_call_in_let :
    Hierarchy.build ⟨[classWithLet]⟩ = .ok (declared ⟨[classWithLet]⟩) ∧
      callInLet.Within 1000 1 ∧
      (∀ t, HasType (declared ⟨[classWithLet]⟩) "Main"
        (TypeEnv.atNode (declared ⟨[classWithLet]⟩) classWithLet methodWithLet [("y", "Main")])
        callInLet t ↔ "Main" = t) ∧
      RulesKept (declared ⟨[classWithLet]⟩) "Main"
        (TypeEnv.atNode (declared ⟨[classWithLet]⟩) classWithLet methodWithLet [("y", "Main")])
        callInLet := by
  have built : Hierarchy.build ⟨[classWithLet]⟩ = .ok (declared ⟨[classWithLet]⟩) := rfl
  have hc : (Program.mk [classWithLet]).classes[0]? = some classWithLet := rfl
  have hf : classWithLet.features[1]? = some methodWithLet := rfl
  have he : methodWithLet.root.at? [1] = some ([("y", "Main")], callInLet) := rfl
  have within : callInLet.Within 1000 1 := by
    unfold Expr.Within
    decide
  have computed : ∃ below,
      (typeIn ⟨[classWithLet]⟩ (declared ⟨[classWithLet]⟩) 1000).node? 0 1 [1] =
        some (.reached callInLet "Main" below) := ⟨_, rfl⟩
  have silent : (typeIn ⟨[classWithLet]⟩ (declared ⟨[classWithLet]⟩) 1000).findings = [] := rfl
  obtain ⟨s, _, _, _, ⟨below, node⟩, recorded, stretch, typed, kept⟩ :=
    typing_exact built hc hf he within
  obtain ⟨below', computed⟩ := computed
  rw [computed, node, Option.some.injEq, Typed.reached.injEq] at recorded
  rw [← recorded.2.1] at typed
  rw [silent] at stretch
  exact ⟨built, within, typed, kept.mp (List.infix_nil.mp stretch)⟩

end Program

end SelfTyped
