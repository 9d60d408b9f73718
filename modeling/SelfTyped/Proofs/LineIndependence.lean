/-
SelfTyped.Proofs.LineIndependence — lines do not matter to the analysis.

Every step of the analysis commutes with taking lines out: what it makes of
a program without its lines is what it makes of the program, with the
lines of the result taken out.  This is shown for the questions that a
hierarchy answers, for the hierarchy of a program, for every rule of the
checker, for whole expressions (`typeExpr_unlined`), for features, and for
a whole run (`typeIn_findings_unlined`, `recordedType?_unlined`).  State and
types of the checker hold no lines, so they come out equal.

Programs that are the same are equal without their lines, and so are all
results for them: `lines_irrelevant`.
-/
import Mathlib.Data.List.Forall2
import SelfTyped.Proofs.Runs
import SelfTyped.Proofs.Unlined

namespace SelfTyped

/-! ## Signatures and findings -/

/-- A location without its line. -/
def Location.unlined (l : Location) : Location :=
  { l with line := 0 }

/-- A violation without its line. -/
def Violation.unlined (v : Violation) : Violation :=
  { v with location := v.location.map Location.unlined }

/-- A finding without its line. -/
def Finding.unlined (f : Finding) : Finding :=
  { f with location := f.location.unlined }

/-- An attribute without its line, as declared. -/
def AttributeSignature.unlined (a : AttributeSignature) : AttributeSignature :=
  { a with line := 0 }

/-- A method without its line, as declared. -/
def MethodSignature.unlined (m : MethodSignature) : MethodSignature :=
  { m with line := 0 }

/-- A class without its lines, as declared. -/
def ClassSignature.unlined (c : ClassSignature) : ClassSignature :=
  { c with
    line := 0
    attributes := c.attributes.map AttributeSignature.unlined
    methods := c.methods.map MethodSignature.unlined }

/-- A hierarchy without the lines of its classes. -/
def Hierarchy.unlined (h : Hierarchy) : Hierarchy :=
  ⟨h.classes.map ClassSignature.unlined⟩

/-- A method table without the lines of its methods. -/
def MethodTable.unlined (table : MethodTable) : MethodTable :=
  ⟨table.methods.map MethodSignature.unlined⟩

theorem ofClass_unlined (c : Class) :
    ClassSignature.ofClass c.unlined = (ClassSignature.ofClass c).unlined := by
  have attributes : c.unlined.attributes = c.attributes.map Attribute.unlined := by
    simp only [Class.attributes, Class.unlined, List.filterMap_map, List.map_filterMap]
    refine List.filterMap_congr fun f _ => ?_
    cases f <;> rfl
  have methods : c.unlined.methods = c.methods.map Method.unlined := by
    simp only [Class.methods, Class.unlined, List.filterMap_map, List.map_filterMap]
    refine List.filterMap_congr fun f _ => ?_
    cases f <;> rfl
  have formals : ∀ m : Method, MethodSignature.ofMethod c.name m.unlined =
      (MethodSignature.ofMethod c.name m).unlined := by
    intro m
    simp [MethodSignature.ofMethod, MethodSignature.unlined, Method.unlined, Formal.unlined,
      Function.comp_def]
  simp only [ClassSignature.ofClass, ClassSignature.unlined, attributes, methods, List.map_map]
  simp only [Class.unlined, ClassSignature.mk.injEq, true_and]
  refine ⟨?_, ?_, trivial⟩
  · exact List.map_congr_left fun a _ => rfl
  · exact List.map_congr_left fun m _ => formals m

/-! ## Hierarchies -/

namespace Hierarchy

variable (h : Hierarchy)

theorem find?_unlined (a : Name) : h.unlined.find? a = (h.find? a).map ClassSignature.unlined := by
  rw [find?, unlined, List.find?_map]
  rfl

theorem isDefined_unlined (a : Name) : h.unlined.isDefined a = h.isDefined a := by
  rw [isDefined, find?_unlined, Option.isSome_map, isDefined]

theorem ancestorsWithin_unlined (steps : Nat) (start : Option Name) :
    h.unlined.ancestorsWithin steps start =
      (h.ancestorsWithin steps start).map ClassSignature.unlined := by
  induction steps generalizing start with
  | zero => rfl
  | succ steps ih =>
    cases start with
    | none => rfl
    | some a =>
      rw [ancestorsWithin, ancestorsWithin, find?_unlined]
      cases h.find? a with
      | none => rfl
      | some c => exact congrArg _ (ih c.parent)

theorem ancestors_unlined (a : Name) :
    h.unlined.ancestors a = (h.ancestors a).map ClassSignature.unlined := by
  rw [ancestors, ancestorsWithin_unlined, unlined, List.length_map, ancestors]

theorem isSubclass_unlined (current a b : Name) :
    h.unlined.isSubclass current a b = h.isSubclass current a b := by
  rw [isSubclass, ancestors_unlined, List.any_map]
  rfl

theorem join_unlined (current a b : Name) : h.unlined.join current a b = h.join current a b := by
  simp only [join, ancestors_unlined, isSubclass_unlined, List.map_map]
  rfl

/-- The violation of a check, or its result, without lines. -/
def unlinedResult {α β : Type} (f : α → β) : Except Violation α → Except Violation β
  | .error v => .error v.unlined
  | .ok a => .ok (f a)

theorem register_unlined (classes : List Class) :
    h.unlined.register (classes.map Class.unlined) =
      unlinedResult unlined (h.register classes) := by
  induction classes generalizing h with
  | nil => rfl
  | cons c rest ih =>
    have name : c.unlined.name = c.name := rfl
    rw [List.map_cons, register, register, ofClass_unlined, name, find?_unlined]
    cases h.find? c.name with
    | some existing => rfl
    | none =>
      by_cases isSelfType : c.name = Known.selfType
      · simp only [Option.map_none, if_pos isSelfType]
        rfl
      · have added := ih ⟨h.classes ++ [ClassSignature.ofClass c]⟩
        rw [unlined, List.map_append] at added
        simp only [Option.map_none, if_neg isSelfType]
        exact added

theorem checkParents_unlined (start : Name) (steps : Nat) (current : ClassSignature) :
    h.unlined.checkParents start steps current.unlined =
      unlinedResult id (h.checkParents start steps current) := by
  induction steps generalizing current with
  | zero =>
    have parent : current.unlined.parent = current.parent := rfl
    rw [checkParents, checkParents, parent]
    cases current.parent with
    | none => rfl
    | some a =>
      simp only [find?_unlined]
      split
      · rfl
      · split
        · rfl
        · cases h.find? a with
          | none => rfl
          | some next =>
            simp only [Option.map_some]
            split <;> rfl
  | succ steps ih =>
    have parent : current.unlined.parent = current.parent := rfl
    rw [checkParents, checkParents, parent]
    cases current.parent with
    | none => rfl
    | some a =>
      simp only [find?_unlined]
      split
      · rfl
      · split
        · rfl
        · cases h.find? a with
          | none => rfl
          | some next =>
            simp only [Option.map_some]
            split
            · rfl
            · exact ih next

theorem checkClasses_unlined (classes : List Class) :
    h.unlined.checkClasses (classes.map Class.unlined) =
      unlinedResult id (h.checkClasses classes) := by
  induction classes with
  | nil => rfl
  | cons c rest ih =>
    have size : h.unlined.classes.length = h.classes.length := List.length_map _
    have name : c.unlined.name = c.name := rfl
    rw [List.map_cons, checkClasses, checkClasses, ofClass_unlined, name, size,
      checkParents_unlined, ih]
    cases h.checkParents c.name h.classes.length (ClassSignature.ofClass c) <;> rfl

/-- **The hierarchy of a program without its lines** is that of the program, and so is any
violation. -/
theorem build_unlined (p : Program) : build p.unlined = unlinedResult unlined (build p) := by
  have builtinUnlined : builtin.unlined = builtin := rfl
  have registered := register_unlined builtin p.classes
  rw [builtinUnlined] at registered
  rw [build, build, Program.unlined, registered]
  cases builtin.register p.classes with
  | error v => rfl
  | ok h =>
    show (if h.unlined.isDefined Known.main then _ else _) =
      unlinedResult unlined (if h.isDefined Known.main then _ else _)
    rw [isDefined_unlined, checkClasses_unlined]
    split
    · cases h.checkClasses p.classes <;> rfl
    · rfl

end Hierarchy

/-! ## Methods and variables -/

namespace MethodTable

/-- A method table without its lines, and the findings made on the way to it. -/
def unlinedState (state : MethodTable × List Finding) : MethodTable × List Finding :=
  (state.1.unlined, state.2.map Finding.unlined)

theorem declared?_unlined (table : MethodTable) (owner name : Name) :
    table.unlined.declared? owner name =
      (table.declared? owner name).map MethodSignature.unlined := by
  rw [declared?, unlined, List.find?_map]
  rfl

theorem resolve?_unlined (table : MethodTable) (h : Hierarchy) (start method : Name) :
    table.unlined.resolve? h.unlined start method =
      (table.resolve? h start method).map MethodSignature.unlined := by
  rw [resolve?, Hierarchy.ancestors_unlined, List.findSome?_map, resolve?, List.map_findSome?]
  congr 1
  funext c
  exact declared?_unlined table c.name method

theorem addClass_unlined (state : MethodTable × List Finding) (c : ClassSignature) :
    addClass (unlinedState state) c.unlined = unlinedState (addClass state c) := by
  have step : ∀ (state : MethodTable × List Finding) (m : MethodSignature),
      add c.unlined (unlinedState state) m.unlined = unlinedState (add c state m) := by
    intro state m
    have taken : ((unlinedState state).1.declared? m.unlined.owner m.unlined.name).isSome =
        (state.1.declared? m.owner m.name).isSome := by
      rw [unlinedState, declared?_unlined, Option.isSome_map]
      rfl
    rw [add, add, taken]
    split
    · simp [unlinedState, Finding.unlined, Location.unlined, ClassSignature.unlined,
        MethodSignature.unlined]
    · simp [unlinedState, MethodTable.unlined]
  rw [addClass, ClassSignature.unlined, List.foldl_map]
  exact List.foldl_hom unlinedState step

theorem build_unlined (h : Hierarchy) : build h.unlined = unlinedState (build h) := by
  rw [build, Hierarchy.unlined, List.foldl_map]
  change h.classes.foldl (fun state c => addClass state c.unlined) (unlinedState (⟨[]⟩, [])) = _
  exact List.foldl_hom unlinedState addClass_unlined

end MethodTable

namespace Variables

/-- A class scope, which holds no lines, with the findings made on the way to it. -/
def unlinedState (state : Variables × List Finding) : Variables × List Finding :=
  (state.1, state.2.map Finding.unlined)

theorem ofClass_unlined (h : Hierarchy) (c : ClassSignature) :
    ofClass h.unlined c.unlined = unlinedState (ofClass h c) := by
  have inherited : ((h.unlined.ancestors c.unlined.name).drop 1).flatMap ClassSignature.attributes =
      (((h.ancestors c.name).drop 1).flatMap ClassSignature.attributes).map
        AttributeSignature.unlined := by
    rw [Hierarchy.ancestors_unlined, ← List.map_drop, List.flatMap_map, List.map_flatMap]
    rfl
  have step : ∀ (state : Variables × List Finding) (a : AttributeSignature),
      declare c.unlined (unlinedState state) a.unlined = unlinedState (declare c state a) := by
    intro state a
    have name : a.unlined.name = a.name := rfl
    have scope : (unlinedState state).1 = state.1 := rfl
    rw [declare, declare, name, scope]
    split
    · rfl
    · split
      · simp [unlinedState, Finding.unlined, Location.unlined, ClassSignature.unlined,
          AttributeSignature.unlined]
      · rfl
  -- inherited attributes enter the scope by their names and types
  rw [ofClass, inherited, List.foldl_map]
  change (c.attributes.map AttributeSignature.unlined).foldl (declare c.unlined)
    (unlinedState (((h.ancestors c.name).drop 1 |>.flatMap ClassSignature.attributes).foldl inherit
      ofEveryClass, [])) = _
  rw [List.foldl_map]
  exact List.foldl_hom unlinedState step

end Variables

/-! ## Rules -/

/-- A type with findings that come with it, without lines. -/
def unlinedJudged (judged : Name × List Finding) : Name × List Finding :=
  (judged.1, judged.2.map Finding.unlined)

namespace Setting

/-- A setting without lines. -/
def unlined (g : Setting) : Setting :=
  ⟨g.hierarchy.unlined, g.methods.unlined, g.current.unlined, g.maxDepth⟩

variable (g : Setting) (line : Nat)

@[simp] theorem isDeclarable_unlined (t : Name) : g.unlined.isDeclarable t = g.isDeclarable t := by
  rw [isDeclarable, unlined, Hierarchy.isDefined_unlined, isDeclarable]

@[simp] theorem conforms_unlined (a b : Name) : g.unlined.conforms a b = g.conforms a b := by
  simp only [conforms, isDeclarable_unlined]
  rw [unlined, Hierarchy.isSubclass_unlined]
  rfl

@[simp] theorem join_unlined (a b : Name) : g.unlined.join a b = g.join a b := by
  rw [join, unlined, Hierarchy.join_unlined]
  rfl

@[simp] theorem joinBranch_unlined (joined : Option Name) (t : Name) :
    g.unlined.joinBranch joined t = g.joinBranch joined t := by
  cases joined with
  | none => rfl
  | some a => exact join_unlined g a t

theorem report_unlined (error : TypeError) :
    g.unlined.report 0 error = (g.report line error).map Finding.unlined := rfl

theorem require_unlined (condition : Bool) (error : TypeError) :
    g.unlined.require condition 0 error =
      (g.require condition line error).map Finding.unlined := by
  cases condition <;> rfl

theorem checkObject_unlined (vars : Variables) (name : Name) :
    g.unlined.checkObject vars 0 name = unlinedJudged (g.checkObject vars line name) := by
  rw [checkObject, checkObject]
  cases vars.lookup name <;> rfl

theorem checkAssign_unlined (vars : Variables) (name t : Name) :
    g.unlined.checkAssign vars 0 name t = unlinedJudged (g.checkAssign vars line name t) := by
  rw [checkAssign, checkAssign]
  split
  · rfl
  · cases vars.lookup name with
    | none => rfl
    | some declared =>
      simp only [conforms_unlined]
      split <;> rfl

theorem checkArgs_unlined (m : MethodSignature) (types : List Name) :
    g.unlined.checkArgs 0 m.unlined types = (g.checkArgs line m types).map Finding.unlined := by
  have params : m.unlined.params = m.params := rfl
  have name : m.unlined.name = m.name := rfl
  rw [checkArgs, checkArgs, params, name]
  split
  · rw [List.map_flatMap]
    congr 1
    funext pair
    obtain ⟨param, t⟩ := pair
    simp only [conforms_unlined, require_unlined g line]
  · exact report_unlined g line _

theorem checkCall_unlined (start method receiver : Name) (types : List Name) :
    g.unlined.checkCall 0 start method receiver types =
      unlinedJudged (g.checkCall line start method receiver types) := by
  have found : g.unlined.methods.resolve? g.unlined.hierarchy start method =
      (g.methods.resolve? g.hierarchy start method).map MethodSignature.unlined :=
    MethodTable.resolve?_unlined g.methods g.hierarchy start method
  rw [checkCall, checkCall, found]
  cases g.methods.resolve? g.hierarchy start method with
  | none => rfl
  | some m =>
    rw [Option.map_some, unlinedJudged]
    simp only [checkArgs_unlined g line]
    rfl

theorem isDefined_unlined (t : Name) :
    g.unlined.hierarchy.isDefined t = g.hierarchy.isDefined t :=
  Hierarchy.isDefined_unlined g.hierarchy t

theorem checkDispatch_unlined (method receiver : Name) (types : List Name) :
    g.unlined.checkDispatch 0 method receiver types =
      unlinedJudged (g.checkDispatch line method receiver types) := by
  have current : g.unlined.current.name = g.current.name := rfl
  simp only [checkDispatch, current, isDefined_unlined]
  split
  · exact checkCall_unlined g line _ method receiver types
  · rfl

theorem checkStaticDispatch_unlined (named method receiver : Name) (types : List Name) :
    g.unlined.checkStaticDispatch 0 named method receiver types =
      unlinedJudged (g.checkStaticDispatch line named method receiver types) := by
  simp only [checkStaticDispatch, isDefined_unlined]
  split
  · rfl
  · split
    · rw [checkCall_unlined g line, conforms_unlined, require_unlined g line]
      simp only [unlinedJudged, List.map_append]
    · rfl

theorem checkBranch_unlined (earlier : List Name) (name t : Name) :
    g.unlined.checkBranch 0 earlier name t =
      (g.checkBranch line earlier name t).map Finding.unlined := by
  simp only [checkBranch, isDefined_unlined, List.map_append]
  rw [require_unlined g line, require_unlined g line]
  split
  · rw [report_unlined g line]
  · rw [require_unlined g line]

theorem checkLet_unlined (name t : Name) (init : Option Name) :
    g.unlined.checkLet 0 name t init = (g.checkLet line name t init).map Finding.unlined := by
  simp only [checkLet, isDeclarable_unlined, List.map_append]
  rw [require_unlined g line, require_unlined g line]
  cases init with
  | none => rfl
  | some actual => simp only [conforms_unlined, require_unlined g line]

theorem checkBinary_unlined (op : Operator) (a b : Name) :
    g.unlined.checkBinary 0 op a b = unlinedJudged (g.checkBinary line op a b) := by
  by_cases isEqual : op = .equal
  · rw [isEqual, checkBinary, checkBinary, require_unlined g line]
    rfl
  · rw [checkBinary_of_ne isEqual, checkBinary_of_ne isEqual]
    split <;> rfl

theorem checkNew_unlined (t : Name) :
    g.unlined.checkNew 0 t = unlinedJudged (g.checkNew line t) := by
  rw [checkNew, checkNew, isDeclarable_unlined]
  split <;> rfl

end Setting

/-! ## Expressions -/

mutual

/-- The result for an expression, without lines. -/
def Typed.unlined : Typed → Typed
  | .reached source type below => .reached source.unlined type (unlinedNodes below)
  | .cut source type => .cut source.unlined type

/-- Results for expressions, without lines. -/
def unlinedNodes : List Typed → List Typed
  | [] => []
  | node :: rest => node.unlined :: unlinedNodes rest

end

theorem unlinedNodes_eq (nodes : List Typed) : unlinedNodes nodes = nodes.map Typed.unlined := by
  induction nodes with
  | nil => rfl
  | cons node rest ih => rw [unlinedNodes, ih, List.map_cons]

/-- The outcome for an expression, without lines. -/
def Outcome.unlined (o : Outcome) : Outcome :=
  { o with node := o.node.unlined, findings := o.findings.map Finding.unlined }

/-- The outcome for the parts of an expression, without lines. -/
def Inference.unlined (i : Inference) : Inference :=
  { i with below := unlinedNodes i.below, findings := i.findings.map Finding.unlined }

/-- The outcome for a feature, without lines. -/
def FeatureOutcome.unlined (o : FeatureOutcome) : FeatureOutcome :=
  { o with node := o.node.unlined, findings := o.findings.map Finding.unlined }

/-- The outcome for several expressions, without lines. -/
def ItemsOutcome.unlined (o : ItemsOutcome) : ItemsOutcome :=
  { o with nodes := unlinedNodes o.nodes, findings := o.findings.map Finding.unlined }

/-- The outcome for branches, without lines. -/
def BranchesOutcome.unlined (o : BranchesOutcome) : BranchesOutcome :=
  { o with nodes := unlinedNodes o.nodes, findings := o.findings.map Finding.unlined }

namespace Setting

mutual

/-- **The outcome for an expression without its lines** is that for the expression. -/
theorem typeExpr_unlined (g : Setting) (s : CheckState) :
    ∀ e : Expr, g.unlined.typeExpr s e.unlined = (g.typeExpr s e).unlined
  | ⟨line, form⟩ => by
    have limit : g.unlined.maxDepth = g.maxDepth := rfl
    rw [Expr.unlined, typeExpr, typeExpr, limit, infer_unlined g s.deeper line form]
    split <;> rfl

theorem infer_unlined (g : Setting) (s : CheckState) (line : Nat) :
    ∀ form : Form, g.unlined.infer s 0 form.unlined = (g.infer s line form).unlined
  | .object name => by
    rw [Form.unlined, infer, infer, checkObject_unlined g line]
    rfl
  | .assign name value => by
    simp only [Form.unlined, infer, typeExpr_unlined g _ value, Outcome.unlined,
      checkAssign_unlined g line, unlinedJudged, Inference.unlined, unlinedNodes, List.map_append]
  | .dispatch receiver method args => by
    simp only [Form.unlined, infer, typeExpr_unlined g _ receiver, typeItems_unlined g _ args,
      Outcome.unlined, ItemsOutcome.unlined, checkDispatch_unlined g line, unlinedJudged,
      Inference.unlined, unlinedNodes, List.map_append]
  | .staticDispatch receiver named method args => by
    simp only [Form.unlined, infer, typeExpr_unlined g _ receiver, typeItems_unlined g _ args,
      Outcome.unlined, ItemsOutcome.unlined, checkStaticDispatch_unlined g line, unlinedJudged,
      Inference.unlined, unlinedNodes, List.map_append]
  | .cond predicate thenArm elseArm => by
    simp only [Form.unlined, infer, typeExpr_unlined g _ predicate, typeExpr_unlined g _ thenArm,
      typeExpr_unlined g _ elseArm, Outcome.unlined, join_unlined, require_unlined g line,
      Inference.unlined, unlinedNodes, List.map_append]
  | .loop condition body => by
    simp only [Form.unlined, infer, typeExpr_unlined g _ condition, typeExpr_unlined g _ body,
      Outcome.unlined, require_unlined g line, Inference.unlined, unlinedNodes, List.map_append]
  | .case scrutinee branches => by
    simp only [Form.unlined, infer, typeExpr_unlined g _ scrutinee,
      typeBranches_unlined g _ _ _ branches, Outcome.unlined, BranchesOutcome.unlined,
      Inference.unlined, unlinedNodes, List.map_append]
  | .block items => by
    simp only [Form.unlined, infer, typeItems_unlined g _ items, ItemsOutcome.unlined,
      Inference.unlined]
  | .letIn name type init body => by
    simp only [Form.unlined, infer, typeExpr_unlined g _ init, typeExpr_unlined g _ body,
      Expr.unlined_isMissing, Outcome.unlined, checkLet_unlined g line, Inference.unlined,
      unlinedNodes, List.map_append]
  | .binary op left right => by
    simp only [Form.unlined, infer, typeExpr_unlined g _ left, typeExpr_unlined g _ right,
      Outcome.unlined, checkBinary_unlined g line, unlinedJudged, Inference.unlined, unlinedNodes,
      List.map_append]
  | .negate operand | .complement operand | .isVoid operand => by
    simp only [Form.unlined, infer, typeExpr_unlined g _ operand, Outcome.unlined,
      require_unlined g line, Inference.unlined, unlinedNodes, List.map_append]
  | .new type => by
    rw [Form.unlined, infer, infer, checkNew_unlined g line]
    rfl
  | .int _ | .bool _ | .string _ | .noExpr => rfl

theorem typeItems_unlined (g : Setting) (s : CheckState) :
    ∀ items : List Expr,
      g.unlined.typeItems s (unlinedItems items) = (g.typeItems s items).unlined
  | [] => rfl
  | item :: rest => by
    simp only [unlinedItems, typeItems, typeExpr_unlined g _ item, typeItems_unlined g _ rest,
      Outcome.unlined, ItemsOutcome.unlined, unlinedNodes, List.map_append]

theorem typeBranches_unlined (g : Setting) (s : CheckState) (earlier : List Name)
    (joined : Option Name) : ∀ branches : List Branch,
      g.unlined.typeBranches s earlier joined (unlinedBranches branches) =
        (g.typeBranches s earlier joined branches).unlined
  | [] => rfl
  | ⟨line, name, type, body⟩ :: rest => by
    simp only [unlinedBranches, typeBranches, typeExpr_unlined g _ body,
      typeBranches_unlined g _ _ _ rest, joinBranch_unlined, checkBranch_unlined g line,
      Outcome.unlined, BranchesOutcome.unlined, unlinedNodes, List.map_append]

end

/-! ## Features -/

/-- A state of the checker, which holds no lines, with findings that come with it. -/
def unlinedState (state : CheckState × List Finding) : CheckState × List Finding :=
  (state.1, state.2.map Finding.unlined)

theorem bindFormal_unlined (g : Setting) (state : CheckState × List Finding) (f : Formal) :
    g.unlined.bindFormal (unlinedState state) f.unlined = unlinedState (g.bindFormal state f) := by
  have formalType : g.unlined.checkFormalType f.unlined =
      (g.checkFormalType f).map Finding.unlined := by
    have type : f.unlined.type = f.type := rfl
    rw [checkFormalType, checkFormalType, type, isDefined_unlined]
    split
    · exact report_unlined g f.line _
    · exact require_unlined g f.line _ _
  have name : f.unlined.name = f.name := rfl
  have type : f.unlined.type = f.type := rfl
  have line : f.unlined.line = 0 := rfl
  simp only [unlinedState, bindFormal, name, type, line, formalType, report_unlined g f.line]
  split
  · rw [List.map_append]
  · split
    · rw [List.map_append, List.map_append]
    · rw [List.map_append]

theorem bindFormals_unlined (g : Setting) (s : CheckState) (formals : List Formal) :
    (formals.map Formal.unlined).foldl g.unlined.bindFormal (s, []) =
      unlinedState (formals.foldl g.bindFormal (s, [])) := by
  rw [List.foldl_map]
  change formals.foldl (fun state f => g.unlined.bindFormal state f.unlined)
    (unlinedState (s, [])) = _
  exact List.foldl_hom unlinedState (bindFormal_unlined g)

theorem typeFeature_unlined (g : Setting) (s : CheckState) (f : Feature) :
    g.unlined.typeFeature s f.unlined = (g.typeFeature s f).unlined := by
  cases f with
  | attr a =>
    have name : a.unlined.name = a.name := rfl
    have type : a.unlined.type = a.type := rfl
    have line : a.unlined.line = 0 := rfl
    have init : a.unlined.init = a.init.unlined := rfl
    simp only [Feature.unlined, typeFeature, typeAttribute, FeatureOutcome.unlined, name, type,
      line, init, Expr.unlined_line, Expr.unlined_isMissing, typeExpr_unlined, Outcome.unlined,
      isDeclarable_unlined, conforms_unlined, List.map_append, ← require_unlined]
  | method m =>
    have name : m.unlined.name = m.name := rfl
    have result : m.unlined.returnType = m.returnType := rfl
    have line : m.unlined.line = 0 := rfl
    have formals : m.unlined.formals = m.formals.map Formal.unlined := rfl
    have body : m.unlined.body = m.body.unlined := rfl
    simp only [Feature.unlined, typeFeature, typeMethod, FeatureOutcome.unlined, name, result,
      line, formals, body, bindFormals_unlined, unlinedState, Expr.unlined_line, typeExpr_unlined,
      Outcome.unlined, isDeclarable_unlined, conforms_unlined, List.map_append,
      ← require_unlined]

end Setting

/-! ## Runs -/

theorem Typed.unlined_type (node : Typed) : node.unlined.type = node.type := by
  cases node <;> rfl

theorem Typed.unlined_sub? (node : Typed) (path : List Nat) :
    node.unlined.sub? path = (node.sub? path).map Typed.unlined := by
  induction path generalizing node with
  | nil => rfl
  | cons i path ih =>
    have parts : node.unlined.parts = node.parts.map Typed.unlined := by
      cases node with
      | reached source type below => exact unlinedNodes_eq below
      | cut source type => rfl
    rw [Typed.sub?, Typed.sub?, parts, List.getElem?_map]
    cases node.parts[i]? with
    | none => rfl
    | some part => exact ih part

namespace Program

variable (p : Program) (h : Hierarchy) (m : Nat)

theorem outcome_unlined (c : Class) (f : Feature) :
    outcome h.unlined m c.unlined f.unlined = (outcome h m c f).unlined := by
  have same : setting h.unlined m c.unlined = (setting h m c).unlined := by
    simp only [setting, Setting.unlined, ofClass_unlined, MethodTable.build_unlined,
      MethodTable.unlinedState]
  have state : classState h.unlined c.unlined = classState h c := by
    rw [classState, ofClass_unlined, Variables.ofClass_unlined, classState]
    rfl
  rw [outcome, same, state, Setting.typeFeature_unlined, outcome]

theorem classFindings_unlined (c : Class) :
    classFindings h.unlined m c.unlined = (classFindings h m c).map Finding.unlined := by
  have features : c.unlined.features = c.features.map Feature.unlined := rfl
  rw [classFindings, classFindings, ofClass_unlined, Variables.ofClass_unlined, List.map_append,
    features, List.flatMap_map, List.map_flatMap]
  simp only [outcome_unlined]
  rfl

theorem typeIn_findings_unlined :
    (p.unlined.typeIn h.unlined m).findings = (p.typeIn h m).findings.map Finding.unlined := by
  have classes : p.unlined.classes = p.classes.map Class.unlined := rfl
  rw [typeIn_findings, typeIn_findings, MethodTable.build_unlined, List.map_append, classes,
    List.flatMap_map, List.map_flatMap]
  simp only [classFindings_unlined]
  rfl

theorem recordedType?_unlined (i j : Nat) (path : List Nat) :
    (p.unlined.typeIn h.unlined m).recordedType? i j path =
      (p.typeIn h m).recordedType? i j path := by
  have classes : p.unlined.classes[i]? = p.classes[i]?.map Class.unlined := List.getElem?_map
  rw [Analysis.recordedType?, Analysis.recordedType?, typeIn_nodes, typeIn_nodes, classes]
  cases p.classes[i]? with
  | none => rfl
  | some c =>
    have features : c.unlined.features[j]? = c.features[j]?.map Feature.unlined :=
      List.getElem?_map
    rw [Option.map_some, Option.bind_some, features, Option.bind_some]
    cases c.features[j]? with
    | none => rfl
    | some f =>
      have node : (outcome h m c f).unlined.node = (outcome h m c f).node.unlined := rfl
      rw [Option.map_some, Option.bind_some, outcome_unlined, node, Typed.unlined_sub?,
        Option.map_map, Option.bind_some]
      exact congrArg (fun f => Option.map f _) (funext Typed.unlined_type)

end Program

/-! ## Programs that are the same -/

/-- Two diagnostics have the same level, file and message. -/
structure Diagnostic.AgreesButLine (d d' : Diagnostic) : Prop where
  level : d'.level = d.level
  file : d'.location.map Location.file = d.location.map Location.file
  message : d'.message = d.message

theorem Diagnostic.AgreesButLine.refl (d : Diagnostic) : d.AgreesButLine d :=
  ⟨rfl, rfl, rfl⟩

theorem Violation.agreesButLine {v v' : Violation} (same : v.unlined = v'.unlined) :
    v.diagnostic.AgreesButLine v'.diagnostic := by
  obtain ⟨location, error⟩ := v
  obtain ⟨location', error'⟩ := v'
  simp only [unlined, mk.injEq] at same
  obtain ⟨located, rfl⟩ := same
  have file := congrArg (Option.map Location.file) located
  rw [Option.map_map, Option.map_map] at file
  exact ⟨rfl, file.symm, rfl⟩

theorem Finding.agreesButLine {f f' : Finding} (same : f.unlined = f'.unlined) :
    f.diagnostic.AgreesButLine f'.diagnostic := by
  obtain ⟨⟨file, line⟩, error⟩ := f
  obtain ⟨⟨file', line'⟩, error'⟩ := f'
  simp only [unlined, Location.unlined, mk.injEq, Location.mk.injEq] at same
  obtain ⟨⟨rfl, -⟩, rfl⟩ := same
  exact ⟨rfl, rfl, rfl⟩

namespace Program

variable {p p' : Program}

/-- Programs that are the same have hierarchies, or violations, that differ in lines only. -/
theorem build_same (same : p.same p' = true) :
    (∃ v v', Hierarchy.build p = .error v ∧ Hierarchy.build p' = .error v' ∧
        v.unlined = v'.unlined) ∨
      ∃ h h', Hierarchy.build p = .ok h ∧ Hierarchy.build p' = .ok h' ∧ h.unlined = h'.unlined := by
  have agree := Hierarchy.build_unlined p
  rw [(Program.same_iff p p').mp same, Hierarchy.build_unlined p'] at agree
  cases built : Hierarchy.build p <;> cases built' : Hierarchy.build p' <;>
    rw [built, built'] at agree
  case error.error v v' => exact Or.inl ⟨v, v', rfl, rfl, (Except.error.inj agree).symm⟩
  case error.ok => exact absurd agree (by simp [Hierarchy.unlinedResult])
  case ok.error => exact absurd agree (by simp [Hierarchy.unlinedResult])
  case ok.ok h h' => exact Or.inr ⟨h, h', rfl, rfl, (Except.ok.inj agree).symm⟩

/-- Programs that are the same are reported on alike, up to lines. -/
theorem check_same (same : p.same p' = true) (m : Nat) (sink : Sink) :
    List.Forall₂ Diagnostic.AgreesButLine (p.check m sink).1.messages
      (p'.check m sink).1.messages := by
  have before : List.Forall₂ Diagnostic.AgreesButLine sink.messages sink.messages :=
    List.forall₂_same.mpr fun d _ => .refl d
  rcases build_same same with ⟨v, v', violated, violated', agree⟩ | ⟨h, h', built, built', agree⟩
  · rw [check_of_violation violated, check_of_violation violated', Sink.messages_emit,
      Sink.messages_emit]
    exact List.rel_append before (.cons (Violation.agreesButLine agree) .nil)
  · have found : (p.typeIn h m).findings.map Finding.unlined =
        (p'.typeIn h' m).findings.map Finding.unlined := by
      rw [← typeIn_findings_unlined, ← typeIn_findings_unlined, agree,
        (Program.same_iff p p').mp same]
    rw [check_messages built, check_messages built']
    refine List.rel_append before ?_
    rw [List.forall₂_map_left_iff, List.forall₂_map_right_iff]
    rw [← List.forall₂_eq_eq_eq, List.forall₂_map_left_iff, List.forall₂_map_right_iff] at found
    exact found.imp fun _ _ => Finding.agreesButLine

/-! ## The main statement -/

/-- **Lines do not matter to the analysis.**  Of programs that are the same, both have a violation
or neither has, and it is the same one.  Without a violation the same types are recorded for
corresponding nodes.  The diagnostics agree one by one in level, file and message. -/
theorem lines_irrelevant (same : p.same p' = true) (m : Nat) :
    (∀ error, (∃ v, Hierarchy.build p = .error v ∧ v.error = error) ↔
        ∃ v', Hierarchy.build p' = .error v' ∧ v'.error = error) ∧
      (∀ h, Hierarchy.build p = .ok h →
        ∃ a a', p.analyse m = .ok a ∧ p'.analyse m = .ok a' ∧
          ∀ i j path, a'.recordedType? i j path = a.recordedType? i j path) ∧
      ∀ sink, List.Forall₂ Diagnostic.AgreesButLine (p.check m sink).1.messages
        (p'.check m sink).1.messages := by
  refine ⟨fun error => ?_, fun h built => ?_, check_same same m⟩
  · rcases build_same same with ⟨v, v', violated, violated', agree⟩ | ⟨h, h', built, built', -⟩
    · have errors : v.error = v'.error := (Violation.mk.inj agree).2
      simp [violated, violated', errors]
    · simp [built, built']
  · rcases build_same same with ⟨v, v', violated, -, -⟩ | ⟨h₀, h', built₀, built', agree⟩
    · rw [violated] at built
      exact absurd built (by simp)
    · rw [built₀, Except.ok.injEq] at built
      obtain rfl := built
      refine ⟨_, _, analyse_of_build built₀, analyse_of_build built', fun i j path => ?_⟩
      rw [← recordedType?_unlined p, ← recordedType?_unlined p', agree,
        (Program.same_iff p p').mp same]

/-- A program with an ill-typed sum, in a method that starts on line `line`. -/
def addsText (line : Nat) : Program :=
  ⟨[⟨1, "Main", "Object", "moved.cl",
    [.method ⟨line, "main", [], "Int",
      ⟨line + 1, .binary .plus ⟨line + 1, .int 1⟩ ⟨line + 2, .string "one"⟩⟩⟩]⟩]⟩

/-- A method that is moved down has the same types and the same diagnostic, on another line. -/
theorem lines_irrelevant_moved_method :
    (addsText 2).same (addsText 7) = true ∧
      (∃ a a', (addsText 2).analyse 1000 = .ok a ∧ (addsText 7).analyse 1000 = .ok a' ∧
        a.recordedType? 0 0 [1] = some "String" ∧ a'.recordedType? 0 0 [1] = some "String") ∧
      List.Forall₂ Diagnostic.AgreesButLine ((addsText 2).check 1000 Sink.empty).1.messages
        ((addsText 7).check 1000 Sink.empty).1.messages ∧
      ((addsText 2).check 1000 Sink.empty).1.messages ≠
        ((addsText 7).check 1000 Sink.empty).1.messages := by
  have same : (addsText 2).same (addsText 7) = true := (Program.same_iff _ _).mpr rfl
  obtain ⟨-, recorded, reported⟩ := lines_irrelevant same 1000
  obtain ⟨a, a', analysed, analysed', agree⟩ := recorded _ rfl
  have text : a.recordedType? 0 0 [1] = some "String" := by
    cases analysed
    rfl
  refine ⟨same, ⟨a, a', analysed, analysed', text, ?_⟩, reported Sink.empty, by decide⟩
  rw [agree, text]

end Program

end SelfTyped
