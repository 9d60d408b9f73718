/-
SelfTyped.Proofs.OwnFindings — what an expression has found wrong with it,
and what is found in its parts.

The checker finds errors in the parts of an expression, and the rule for the
expression adds its own, before, between or after them.  Apart from where
they stand in the list, the errors of an expression are those of its rule
and those of its parts (`Setting.infer_findings_perm`).  So an error that is
reported for an expression comes from the rule of one of its nodes.

Whatever a rule finds is about the node that it is for, or about a branch of
a `case` (`Setting.ownFindings_about`), and is reported there.  Each check is
looked at once (`Setting.AllAbout`); what its errors say of a construct is
then read off `Construct.Fault`.
-/
import SelfTyped.Proofs.Exactness
import SelfTyped.Typing.Places

namespace SelfTyped

theorem MethodTable.resolve?_name {table : MethodTable} {h : Hierarchy} {start method : Name}
    {m : MethodSignature} (found : table.resolve? h start method = some m) : m.name = method := by
  obtain ⟨c, -, declared⟩ := List.exists_of_findSome?_eq_some found
  have hit := List.find?_some declared
  rw [Bool.and_eq_true, beq_iff_eq, beq_iff_eq] at hit
  exact hit.2

namespace Setting

variable {g : Setting} {s : CheckState} {line : Nat} {form : Form} {types : List Name}
  {name type : Name}

/-! ## Own findings -/

/-- What is wrong with the declarations of branches, given the types that earlier branches
declare. -/
def branchFindings (g : Setting) (earlier : List Name) : List Branch → List Finding
  | [] => []
  | branch :: rest =>
    g.checkBranch branch.line earlier branch.name branch.type ++
      g.branchFindings (branch.type :: earlier) rest

/-- What the rule for an expression finds, given the types of the parts. -/
def ownFindings (g : Setting) (s : CheckState) (line : Nat) : Form → List Finding
  | .object name => (g.checkObject s.vars line name).2
  | .assign name value => (g.checkAssign s.vars line name (g.typeExpr s value).type).2
  | .dispatch receiver method args =>
    (g.checkDispatch line method (g.typeExpr s receiver).type
      (args.map fun arg => (g.typeExpr s arg).type)).2
  | .staticDispatch receiver named method args =>
    (g.checkStaticDispatch line named method (g.typeExpr s receiver).type
      (args.map fun arg => (g.typeExpr s arg).type)).2
  | .cond predicate _ _ =>
    g.require ((g.typeExpr s predicate).type == Known.bool) line .ifPredicateNotBool
  | .loop condition _ =>
    g.require ((g.typeExpr s condition).type == Known.bool) line .loopConditionNotBool
  | .case _ branches => g.branchFindings [] branches
  | .letIn name declared init _ =>
    g.checkLet line name declared (if init.isMissing then none else some (g.typeExpr s init).type)
  | .binary op left right =>
    (g.checkBinary line op (g.typeExpr s left).type (g.typeExpr s right).type).2
  | .negate operand =>
    g.require ((g.typeExpr s operand).type == Known.int) line
      (.negateNotInt (g.typeExpr s operand).type)
  | .complement operand =>
    g.require ((g.typeExpr s operand).type == Known.bool) line
      (.complementNotBool (g.typeExpr s operand).type)
  | .new named => (g.checkNew line named).2
  | .block _ | .isVoid _ | .int _ | .bool _ | .string _ | .noExpr => []

theorem perm_swap_middle {α : Type} (first second third : List α) :
    (first ++ (second ++ third)).Perm (second ++ (first ++ third)) := by
  rw [← List.append_assoc, ← List.append_assoc]
  exact List.perm_append_comm.append_right third

theorem typeBranches_findings_perm (consistent : s.vars.Consistent) (earlier : List Name)
    (joined : Option Name) (branches : List Branch) :
    (g.typeBranches s earlier joined branches).findings.Perm
      (g.branchFindings earlier branches ++
        branches.flatMap fun branch => (g.partOutcome s (.ofBranch branch)).findings) := by
  induction branches generalizing earlier joined with
  | nil => exact List.Perm.refl _
  | cons branch rest ih =>
    rw [typeBranches_cons consistent, branchFindings, List.flatMap_cons, List.append_assoc]
    refine List.Perm.append_left _ ?_
    exact ((ih _ _).append_left _).trans (perm_swap_middle _ _ _)

/-- **What is found in an expression** is what its rule finds and what is found in its parts. -/
theorem infer_findings_perm (consistent : s.vars.Consistent) (line : Nat) (form : Form) :
    (g.infer s line form).findings.Perm
      (g.ownFindings s line form ++
        form.parts.flatMap fun part => (g.partOutcome s part).findings) := by
  have restored := fun e => typeExpr_state (g := g) consistent e
  have plain : ∀ e, g.partOutcome s (.plain e) = g.typeExpr s e := fun _ => rfl
  cases form with
  | assign | negate | complement =>
    simp only [infer, restored, ownFindings, Form.parts, List.flatMap_singleton, plain]
    exact List.perm_append_comm
  | binary =>
    simp only [infer, restored, ownFindings, Form.parts, List.flatMap_cons, List.flatMap_nil,
      List.append_nil, plain]
    rw [← List.append_assoc]
    exact List.perm_append_comm
  | dispatch | staticDispatch =>
    simp only [infer, restored, typeItems_eq consistent, ownFindings, Form.parts,
      List.flatMap_cons, List.flatMap_map, plain]
    rw [← List.append_assoc]
    exact List.perm_append_comm
  | cond | loop | letIn =>
    simp only [infer, restored, ownFindings, Form.parts, List.flatMap_cons, List.flatMap_nil,
      List.append_nil, plain]
    exact perm_swap_middle _ _ _
  | case scrutinee branches =>
    simp only [infer, restored, ownFindings, Form.parts, List.flatMap_cons, List.flatMap_map,
      plain]
    refine ((typeBranches_findings_perm consistent [] none branches).append_left _).trans ?_
    exact perm_swap_middle _ _ _
  | block =>
    simp only [infer, typeItems_eq consistent, ownFindings, Form.parts, List.flatMap_map, plain]
    exact List.Perm.refl _
  | isVoid =>
    simp only [infer, ownFindings, Form.parts, List.flatMap_singleton, plain]
    exact List.Perm.refl _
  | object | new | int | bool | string | noExpr =>
    simp [infer, Inference.leaf, ownFindings, Form.parts]

theorem mem_infer_findings (consistent : s.vars.Consistent) {f : Finding} :
    f ∈ (g.infer s line form).findings ↔
      f ∈ g.ownFindings s line form ∨
        ∃ part ∈ form.parts, f ∈ (g.partOutcome s part).findings := by
  rw [(infer_findings_perm consistent line form).mem_iff, List.mem_append, List.mem_flatMap]

/-! ## What findings are about -/

/-- All findings are about one construct of the class. -/
def AllAbout (g : Setting) (construct : Construct) (findings : List Finding) : Prop :=
  ∀ f ∈ findings, f.IsAbout g.current.file construct

variable {construct : Construct} {error : TypeError}

@[simp] theorem about_nil : g.AllAbout construct [] :=
  fun _ mem => absurd mem List.not_mem_nil

@[simp] theorem about_append {first second : List Finding} :
    g.AllAbout construct (first ++ second) ↔
      g.AllAbout construct first ∧ g.AllAbout construct second :=
  List.forall_mem_append

theorem about_report (fault : construct.Fault line error) :
    g.AllAbout construct (g.report line error) :=
  List.forall_mem_singleton.mpr ⟨rfl, fault⟩

theorem about_require {condition : Bool}
    (fault : condition = false → construct.Fault line error) :
    g.AllAbout construct (g.require condition line error) := by
  cases condition with
  | true => exact about_nil
  | false => exact about_report (fault rfl)

theorem about_checkObject (vars : Variables) :
    g.AllAbout (.expr ⟨line, .object name⟩) (g.checkObject vars line name).2 := by
  unfold checkObject
  split
  · exact about_nil
  · exact about_report (.expr line (.undeclared name _))

theorem about_checkAssign (vars : Variables) (value : Expr) :
    g.AllAbout (.expr ⟨line, .assign name value⟩) (g.checkAssign vars line name type).2 := by
  unfold checkAssign
  split
  · next isSelf =>
    rw [isSelf]
    exact about_report (.expr line (.assignToSelf value))
  · split
    · exact about_report (.expr line (.assignToUndeclared name value _))
    · split
      · exact about_nil
      · exact about_report (.expr line (.assignMismatch name type _ value))

theorem about_checkArgs {m : MethodSignature} (calls : form.calledMethod? = some m.name) :
    g.AllAbout (.expr ⟨line, form⟩) (g.checkArgs line m types) := by
  unfold checkArgs
  split
  · intro f mem
    obtain ⟨pair, -, mem⟩ := List.mem_flatMap.mp mem
    exact about_require (fun _ => .expr line (.argumentMismatch calls _ _ _)) f mem
  · exact about_report (.expr line (.wrongArity calls _ _))

theorem about_checkCall {method : Name} (calls : form.calledMethod? = some method)
    (start receiver : Name) :
    g.AllAbout (.expr ⟨line, form⟩) (g.checkCall line start method receiver types).2 := by
  unfold checkCall
  split
  · exact about_report (.expr line (.undefinedMethod calls))
  · next found =>
    rw [← MethodTable.resolve?_name found] at calls
    exact about_checkArgs calls

theorem about_checkDispatch {method : Name} (calls : form.calledMethod? = some method)
    (receiver : Name) :
    g.AllAbout (.expr ⟨line, form⟩) (g.checkDispatch line method receiver types).2 := by
  unfold checkDispatch
  simp only
  split
  · exact about_checkCall calls _ _
  · exact about_nil

theorem about_checkStaticDispatch (receiver : Expr) (named method actual : Name)
    (args : List Expr) :
    g.AllAbout (.expr ⟨line, .staticDispatch receiver named method args⟩)
      (g.checkStaticDispatch line named method actual types).2 := by
  unfold checkStaticDispatch
  split
  · next isSelfType =>
    rw [isSelfType]
    exact about_report (.expr line (.staticDispatchToSelfType receiver method args))
  · split
    · refine about_append.mpr ⟨about_require fun _ => ?_, about_checkCall rfl _ _⟩
      exact .expr line (.staticDispatchMismatch receiver actual named method args)
    · exact about_report (.expr line (.staticDispatchToUndefinedClass receiver named method args))

theorem about_checkBranch (earlier : List Name) (branch : Branch) :
    g.AllAbout (.branch branch) (g.checkBranch branch.line earlier branch.name branch.type) := by
  unfold checkBranch
  rw [about_append, about_append]
  refine ⟨about_require fun _ => .duplicateCaseBranch branch,
    about_require fun isSelf => .selfInCase branch (bne_eq_false_iff_eq.mp isSelf), ?_⟩
  split
  · next isSelfType => exact about_report (.selfTypeCaseBranch branch isSelfType)
  · exact about_require fun _ => .undefinedCaseBranchType branch

theorem about_checkLet (name type : Name) (init body : Expr) (actual : Option Name) :
    g.AllAbout (.expr ⟨line, .letIn name type init body⟩) (g.checkLet line name type actual) := by
  unfold checkLet
  rw [about_append, about_append]
  refine ⟨about_require fun isSelf => ?_,
    about_require fun _ => .expr line (.undefinedLetType name type init body), ?_⟩
  · rw [bne_eq_false_iff_eq.mp isSelf]
    exact .expr line (.selfInLet type init body)
  · split
    · exact about_nil
    · exact about_require fun _ => .expr line (.letInitMismatch name _ type init body)

theorem about_checkBinary (op : Operator) (first second : Expr) (left right : Name) :
    g.AllAbout (.expr ⟨line, .binary op first second⟩) (g.checkBinary line op left right).2 := by
  unfold checkBinary
  split
  · exact about_require fun _ => .expr line (.illegalComparison first second)
  · next notEqual =>
    split
    · exact about_nil
    · exact about_report (.expr line (.nonIntArguments left right notEqual first second))

theorem about_checkNew (named : Name) :
    g.AllAbout (.expr ⟨line, .new named⟩) (g.checkNew line named).2 := by
  unfold checkNew
  split
  · exact about_nil
  · exact about_report (.expr line (.newUndefinedClass named))

/-- Branches are reported at their own lines. -/
theorem branchFindings_about {earlier : List Name} {branches : List Branch} {f : Finding}
    (mem : f ∈ g.branchFindings earlier branches) :
    ∃ branch ∈ branches, f.IsAbout g.current.file (.branch branch) := by
  induction branches generalizing earlier with
  | nil => exact absurd mem List.not_mem_nil
  | cons branch rest ih =>
    rcases List.mem_append.mp mem with here | later
    · exact ⟨branch, List.mem_cons_self, about_checkBranch earlier branch f here⟩
    · obtain ⟨other, mem, found⟩ := ih later
      exact ⟨other, List.mem_cons_of_mem branch mem, found⟩

/-- **What a rule finds** is about the expression or about one of its branches. -/
theorem ownFindings_about {f : Finding} (mem : f ∈ g.ownFindings s line form) :
    f.IsAbout g.current.file (.expr ⟨line, form⟩) ∨
      ∃ branch, .branch branch ∈ form.constructs ∧ f.IsAbout g.current.file (.branch branch) := by
  cases form with
  | case scrutinee branches =>
    obtain ⟨branch, among, about⟩ := branchFindings_about mem
    exact Or.inr ⟨branch, List.mem_cons_of_mem _ (List.mem_map_of_mem among), about⟩
  | object => exact Or.inl (about_checkObject _ f mem)
  | assign name value => exact Or.inl (about_checkAssign _ value f mem)
  | dispatch => exact Or.inl (about_checkDispatch rfl _ f mem)
  | staticDispatch => exact Or.inl (about_checkStaticDispatch _ _ _ _ _ f mem)
  | cond => exact Or.inl (about_require (fun _ => .expr line (.ifPredicateNotBool ..)) f mem)
  | loop => exact Or.inl (about_require (fun _ => .expr line (.loopConditionNotBool ..)) f mem)
  | negate => exact Or.inl (about_require (fun _ => .expr line (.negateNotInt ..)) f mem)
  | complement => exact Or.inl (about_require (fun _ => .expr line (.complementNotBool ..)) f mem)
  | letIn => exact Or.inl (about_checkLet _ _ _ _ _ f mem)
  | binary => exact Or.inl (about_checkBinary _ _ _ _ _ f mem)
  | new => exact Or.inl (about_checkNew _ f mem)
  | block | isVoid | int | bool | string | noExpr => exact absurd mem List.not_mem_nil

/-! ## Declarations -/

theorem about_checkFormalType (formal : Formal) :
    g.AllAbout (.formal formal) (g.checkFormalType formal) := by
  unfold checkFormalType
  split
  · next isSelfType => exact about_report (.selfTypeFormal formal isSelfType)
  · exact about_require fun _ => .undefinedFormalType formal

theorem bindFormal_about (state : CheckState × List Finding) (formal : Formal) :
    ∃ own, (g.bindFormal state formal).2 = state.2 ++ own ∧ g.AllAbout (.formal formal) own := by
  unfold bindFormal
  simp only
  split
  · next isSelf => exact ⟨_, rfl, about_report (.selfFormal formal isSelf)⟩
  · split
    · refine ⟨_, rfl, about_append.mpr ⟨about_checkFormalType formal, ?_⟩⟩
      exact about_report (.duplicateFormal formal)
    · exact ⟨_, rfl, about_checkFormalType formal⟩

/-- Formal parameters are reported at their own lines. -/
theorem bindFormals_about {formals : List Formal} {state : CheckState × List Finding}
    {f : Finding} (mem : f ∈ (formals.foldl g.bindFormal state).2) :
    f ∈ state.2 ∨ ∃ formal ∈ formals, f.IsAbout g.current.file (.formal formal) := by
  induction formals generalizing state with
  | nil => exact Or.inl mem
  | cons first rest ih =>
    obtain ⟨own, step, about⟩ := bindFormal_about (g := g) state first
    rcases ih mem with before | ⟨formal, later, found⟩
    · rw [step, List.mem_append] at before
      refine before.imp_right fun here => ?_
      exact ⟨first, List.mem_cons_self, about f here⟩
    · exact Or.inr ⟨formal, List.mem_cons_of_mem first later, found⟩

/-- What is found in a feature is found in its initializer or body, or it is about the feature or
one of its formal parameters. -/
theorem mem_typeFeature_findings {feature : Feature} {f : Finding}
    (mem : f ∈ (g.typeFeature s feature).findings) :
    f ∈ (g.typeExpr (g.featureState s feature) feature.root).findings ∨
      f.IsAbout g.current.file (.feature feature) ∨
      ∃ formal, .formal formal ∈ feature.constructs ∧
        f.IsAbout g.current.file (.formal formal) := by
  cases feature with
  | attr a =>
    simp only [typeFeature, typeAttribute, List.mem_append] at mem
    rcases mem with named | typed | inside | initialized
    · have fault := fun isSelf => Construct.Fault.selfAttribute a (bne_eq_false_iff_eq.mp isSelf)
      exact Or.inr (Or.inl (about_require fault f named))
    · exact Or.inr (Or.inl (about_require (fun _ => .undefinedAttributeType a) f typed))
    · exact Or.inl inside
    · exact Or.inr (Or.inl (about_require (fun _ => .attributeInitMismatch a _) f initialized))
  | method m =>
    simp only [typeFeature, typeMethod, List.mem_append] at mem
    rcases mem with formals | typed | inside | returned
    · obtain ⟨formal, among, about⟩ :=
        (bindFormals_about formals).resolve_left List.not_mem_nil
      refine Or.inr (Or.inr ⟨formal, ?_, about⟩)
      exact List.mem_append_left _ (List.mem_map_of_mem among)
    · exact Or.inr (Or.inl (about_require (fun _ => .undefinedReturnType m) f typed))
    · exact Or.inl inside
    · exact Or.inr (Or.inl (about_require (fun _ => .returnTypeMismatch m _) f returned))

end Setting

end SelfTyped
