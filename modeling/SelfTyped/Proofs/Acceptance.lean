/-
SelfTyped.Proofs.Acceptance — what acceptance says of a program.

Later phases rely on an accepted program: every call finds a method with
as many parameters as it has arguments, and wherever a value goes it is of
a subclass of what is declared there.  This is so but for one gap.  The
checker is silent about a type that does not exist, on the ground that it
was reported where it came up, and the type of a missing expression is
reported nowhere.

`acceptance_exact` says exactly how wide the gap is.  In an accepted
program a dispatch is sound, and a value is of a subclass of what is
declared, if and only if the type recorded for the receiver or value is
`Present`: it is not the type of a missing expression, unless the program
declares a class of that name.  Of all other types it is shown that they
were reported: those of attributes, parameters, results, variables of
`let` and `case`, and of `new`.
-/
import SelfTyped.Proofs.Reports
import SelfTyped.Proofs.SilentTypes

namespace SelfTyped

namespace Program

variable {p : Program} {h : Hierarchy} {maxDepth : Nat} {c : Class} {f : Feature}

/-! ## Silence -/

/-- A program has a hierarchy, and nothing is found over it. -/
structure Accepted (p : Program) (h : Hierarchy) (maxDepth : Nat) : Prop where
  built : Hierarchy.build p = .ok h
  silent : (p.typeIn h maxDepth).findings = []

/-- A check that succeeds has found nothing. -/
theorem accepted_of_check {sink sink' : Sink} {a : Analysis}
    (accepted : p.check maxDepth sink = (sink', .ok a)) :
    ∃ h, p.Accepted h maxDepth ∧ a = p.typeIn h maxDepth := by
  cases built : Hierarchy.build p with
  | error violation =>
    rw [check_of_violation built] at accepted
    exact absurd accepted (by simp)
  | ok h =>
    rw [check_of_analysis (analyse_of_build built), Prod.mk.injEq] at accepted
    obtain ⟨-, accepted⟩ := accepted
    split at accepted
    · exact absurd accepted (by simp)
    · next quiet =>
      rw [Except.ok.injEq] at accepted
      exact ⟨h, ⟨built, List.eq_nil_of_length_eq_zero (by omega)⟩, accepted.symm⟩

theorem Accepted.proper (accepted : p.Accepted h maxDepth) (hc : c ∈ p.classes) :
    (setting h maxDepth c).Proper :=
  setting_proper accepted.built hc

theorem Accepted.typeFeature (accepted : p.Accepted h maxDepth) (hc : c ∈ p.classes)
    (hf : f ∈ c.features) :
    ((setting h maxDepth c).typeFeature (classState h c) f).findings = [] := by
  have stretch : ((setting h maxDepth c).typeFeature (classState h c) f).findings <:+:
      (p.typeIn h maxDepth).findings := typeIn_findings_part hc hf
  rw [accepted.silent] at stretch
  exact List.infix_nil.mp stretch

theorem Accepted.root (accepted : p.Accepted h maxDepth) (hc : c ∈ p.classes)
    (hf : f ∈ c.features) :
    ((setting h maxDepth c).typeExpr ((setting h maxDepth c).featureState (classState h c) f)
      f.root).findings = [] := by
  have stretch := Setting.typeFeature_findings_part (setting h maxDepth c) (classState h c) f
  rw [accepted.typeFeature hc hf] at stretch
  exact List.infix_nil.mp stretch

/-! ## Declarations -/

/-- Every type in a signature of an accepted program exists. -/
theorem Accepted.complete (accepted : p.Accepted h maxDepth) : h.Complete := by
  obtain ⟨wf, rfl⟩ := Hierarchy.build_eq_ok_iff.mp accepted.built
  have signatures : ∀ c ∈ p.declared.classes, ∀ m ∈ c.methods,
      p.declared.IsType m.returnType ∧ ∀ param ∈ m.params, p.declared.IsType param.type := by
    intro c hc m hm
    rcases Hierarchy.mem_declared hc with hc | ⟨d, hd, rfl⟩
    · obtain ⟨result, params⟩ := builtin_signatures c hc m hm
      exact ⟨result.imp id builtin_isDefined,
        fun param mem => Or.inr (builtin_isDefined (params param mem))⟩
    · obtain ⟨method, mem, rfl⟩ := List.mem_map.mp hm
      obtain ⟨formals, result, -⟩ :=
        Setting.method_silent (accepted.typeFeature hd (Class.mem_methods mem))
      refine ⟨result, fun param hparam => ?_⟩
      obtain ⟨formal, hformal, rfl⟩ := List.mem_map.mp hparam
      exact Or.inr (formals formal hformal)
  exact ⟨fun t basic => builtin_isDefined basic, fun c hc m hm => (signatures c hc m hm).1,
    fun c hc m hm => (signatures c hc m hm).2⟩

/-! ## Variables of a feature -/

theorem Accepted.declared_ofClass (accepted : p.Accepted h maxDepth) (hc : c ∈ p.classes) :
    (TypeEnv.ofClass h (ClassSignature.ofClass c)).Declared h := by
  refine TypeEnv.declaredIn_ofClass (Or.inl rfl) fun a mem => ?_
  obtain ⟨d, hd, decl, hdecl, same⟩ := mem_attributesInScope accepted.built hc mem
  rw [same]
  exact (Setting.attribute_silent (accepted.typeFeature hd hdecl)).1

/-- The variables that a feature of an accepted program sees have types that exist. -/
theorem Accepted.declared_ofFeature (accepted : p.Accepted h maxDepth) (hc : c ∈ p.classes)
    (hf : f ∈ c.features) : (TypeEnv.ofFeature h (ClassSignature.ofClass c) f).Declared h := by
  have inClass := accepted.declared_ofClass hc
  cases f with
  | attr a => exact inClass
  | method m =>
    refine TypeEnv.declaredIn_withFormals inClass fun f mem _ => ?_
    exact Or.inr ((Setting.method_silent (accepted.typeFeature hc hf)).1 f mem)

/-! ## Recorded types -/

/-- An analysis records, at a node in the class `c` with the variables `Γ` in scope, the given
types for the parts of the node. -/
inductive Records (p : Program) (a : Analysis) (c : Class) : TypeEnv → Form → List Name → Prop
  | node {i j : Nat} {f : Feature} {path : List Nat} {binders : List (Name × Name)} {line : Nat}
      {form : Form} {t : Name} {below : List Typed} (hc : p.classes[i]? = some c)
      (hf : c.features[j]? = some f) (he : f.root.at? path = some (binders, ⟨line, form⟩))
      (recorded : a.node? i j path = some (.reached ⟨line, form⟩ t below)) :
      Records p a c (TypeEnv.atNode a.hierarchy c f binders) form (below.map Typed.type)

theorem Records.class_mem {a : Analysis} {Γ : TypeEnv} {form : Form} {types : List Name}
    (records : p.Records a c Γ form types) : c ∈ p.classes := by
  cases records with
  | node hc => exact List.mem_of_getElem? hc

/-- The checker comes to every node of an accepted program, reports nothing there, and what it
finds is recorded. -/
theorem Accepted.node (accepted : p.Accepted h maxDepth) {i j : Nat} {path : List Nat}
    {binders : List (Name × Name)} {e : Expr} (hc : p.classes[i]? = some c)
    (hf : c.features[j]? = some f) (he : f.root.at? path = some (binders, e)) :
    ∃ s : CheckState, s.vars.Agrees (TypeEnv.atNode h c f binders) ∧
      (TypeEnv.atNode h c f binders).Declared h ∧
      (p.typeIn h maxDepth).node? i j path = some ((setting h maxDepth c).typeExpr s e).node ∧
      ((setting h maxDepth c).typeExpr s e).findings = [] := by
  have mem := List.mem_of_getElem? hc
  have memf := List.mem_of_getElem? hf
  have agrees : ((setting h maxDepth c).featureState (classState h c) f).vars.Agrees
      (TypeEnv.ofFeature h (ClassSignature.ofClass c) f) :=
    Setting.featureState_agrees (classState_agrees h c) f
  rw [typeIn_node? hc hf, Setting.typeFeature_node]
  exact Setting.typeExpr_at_silent (accepted.proper mem) agrees
    (accepted.declared_ofFeature mem memf) (accepted.root mem memf) he

/-- The types recorded for the parts of a node of an accepted program meet the side condition,
and they are types that arise. -/
theorem Accepted.records (accepted : p.Accepted h maxDepth) {Γ : TypeEnv} {form : Form}
    {types : List Name} (records : p.Records (p.typeIn h maxDepth) c Γ form types) :
    SideCondition h c.name Γ form types ∧ Γ.Declared h ∧ (∀ t ∈ types, h.Arises t) ∧
      types.length = form.parts.length := by
  cases records with
  | @node i j f path binders line form t below hc hf he recorded =>
    obtain ⟨s, agrees, declared, recorded', silent⟩ := accepted.node hc hf he
    have proper := accepted.proper (List.mem_of_getElem? hc)
    obtain ⟨parts, side⟩ := Setting.parts_of_silent proper agrees silent
    have agrees : s.deeper.vars.Agrees (TypeEnv.atNode h c f binders) := agrees
    have types : below.map Typed.type =
        form.parts.map ((setting h maxDepth c).partType s.deeper) := by
      rw [recorded', Setting.typeExpr_of_lt (Setting.lt_of_silent silent),
        Option.some.injEq] at recorded
      have same := congrArg Typed.parts recorded
      change ((setting h maxDepth c).infer s.deeper line form).below = below at same
      rw [← same, Setting.infer_below agrees.consistent, List.map_map]
      exact List.map_congr_left fun part _ => Setting.typeExpr_node_type _ _ _
    rw [types]
    refine ⟨side, declared, ?_, List.length_map _⟩
    rw [List.forall_mem_map]
    intro part mem
    exact Setting.typeExpr_arises proper accepted.complete (agrees_under agrees part.binder)
      (side.declared_under declared mem) (parts part mem)

/-! ## Acceptance -/

/-- The type is not that of a missing expression, unless there is a class of that name. -/
def Present (a : Analysis) (t : Name) : Prop :=
  t = Known.noType → a.hierarchy.isDefined Known.noType = true

/-- A method that is sought from a class on is found and has `arity` parameters. -/
def FindsMethod (a : Analysis) (start method : Name) (arity : Nat) : Prop :=
  ∃ m, a.methods.resolve? a.hierarchy start method = some m ∧ m.params.length = arity

/-- In the class `c` a value of the recorded type `actual` goes where `declared` is declared. -/
inductive ConformanceSite (p : Program) (a : Analysis) (c : Class) : Name → Name → Prop
  | argument {Γ receiver method args r types m actual} {k : Nat} {param : Parameter}
      (node : p.Records a c Γ (.dispatch receiver method args) (r :: types))
      (found : a.methods.resolve? a.hierarchy (Name.resolve c.name r) method = some m)
      (hparam : m.params[k]? = some param) (harg : types[k]? = some actual) :
      ConformanceSite p a c actual param.type
  | staticArgument {Γ receiver named method args r types m actual} {k : Nat} {param : Parameter}
      (node : p.Records a c Γ (.staticDispatch receiver named method args) (r :: types))
      (found : a.methods.resolve? a.hierarchy named method = some m)
      (hparam : m.params[k]? = some param) (harg : types[k]? = some actual) :
      ConformanceSite p a c actual param.type
  | staticReceiver {Γ receiver named method args r types}
      (node : p.Records a c Γ (.staticDispatch receiver named method args) (r :: types)) :
      ConformanceSite p a c r named
  | assigned {Γ x value actual declared} (node : p.Records a c Γ (.assign x value) [actual])
      (bound : Γ x = some declared) : ConformanceSite p a c actual declared
  | letInit {Γ x declared init body actual t}
      (node : p.Records a c Γ (.letIn x declared init body) [actual, t])
      (present : init.isMissing = false) : ConformanceSite p a c actual declared
  | attributeInit {i j node} {decl : Attribute} (hc : p.classes[i]? = some c)
      (hf : c.features[j]? = some (.attr decl)) (present : decl.init.isMissing = false)
      (recorded : a.node? i j [] = some node) : ConformanceSite p a c node.type decl.type
  | methodBody {i j node} {decl : Method} (hc : p.classes[i]? = some c)
      (hf : c.features[j]? = some (.method decl)) (recorded : a.node? i j [] = some node) :
      ConformanceSite p a c node.type decl.returnType

/-- What acceptance says of a program and its analysis. -/
structure AcceptanceLaws (p : Program) (a : Analysis) : Prop where
  /-- Every expression has a recorded type, and so have its parts. -/
  recorded : ∀ i c j f path binders e, p.classes[i]? = some c → c.features[j]? = some f →
    f.root.at? path = some (binders, e) → ∃ t below,
      a.node? i j path = some (.reached e t below) ∧ below.length = e.form.parts.length
  /-- A dispatch is sound if and only if the type of its receiver is present. -/
  dispatch : ∀ c Γ receiver method args r types,
    p.Records a c Γ (.dispatch receiver method args) (r :: types) →
      (a.hierarchy.isDefined (Name.resolve c.name r) = true ∧
        FindsMethod a (Name.resolve c.name r) method args.length ↔ Present a r)
  /-- A static dispatch finds its method. -/
  staticDispatch : ∀ c Γ receiver named method args types,
    p.Records a c Γ (.staticDispatch receiver named method args) types →
      FindsMethod a named method args.length
  /-- A value is of a subclass of what is declared if and only if its type is present. -/
  conformance : ∀ c actual declared, ConformanceSite p a c actual declared →
    (a.hierarchy.isSubclass c.name actual declared = true ↔ Present a actual)

theorem present_iff {t : Name} (arises : h.Arises t) :
    Present (p.typeIn h maxDepth) t ↔ h.IsType t := by
  constructor
  · intro present
    rcases arises with exist | missing
    · exact exist
    · rw [missing]
      exact Or.inr (present missing)
  · rintro (isSelfType | known) missing
    · rw [isSelfType] at missing
      exact absurd missing (by decide)
    · rw [missing] at known
      exact known

/-- Conformance to a type that exists, of a type that arises. -/
theorem isSubclass_iff_present {current actual declared : Name} (rooted : h.Rooted)
    (known : h.isDefined current = true) (fits : h.Conforms current actual declared)
    (arises : h.Arises actual) (exist : h.IsType declared) :
    h.isSubclass current actual declared = true ↔ Present (p.typeIn h maxDepth) actual := by
  rw [present_iff arises, Hierarchy.isSubclass_iff rooted, ← Hierarchy.isType_iff known]
  constructor
  · exact fun both => both.1
  · intro actualExists
    rcases fits with unknown | unknown | below
    · exact absurd actualExists unknown
    · exact absurd exist unknown
    · exact ⟨actualExists, below⟩

theorem findsMethod_of_callFits (accepted : p.Accepted h maxDepth) {current start method : Name}
    {args : List Name} (fits : h.CallFits current start method args) :
    FindsMethod (p.typeIn h maxDepth) start method args.length := by
  obtain ⟨m, declared, pairs⟩ := fits
  refine ⟨m, ?_, pairs.length_eq⟩
  exact (MethodTable.resolve?_eq_some_iff (Hierarchy.build_rooted accepted.built)
    (build_owned accepted.built)).mpr declared

/-- An argument of a call that fits conforms to the parameter, whose type exists. -/
theorem argument_fits (complete : h.Complete) {current start method actual : Name} {k : Nat}
    {args : List Name} {m : MethodSignature} {param : Parameter}
    (found : h.Resolves method start m) (fits : h.CallFits current start method args)
    (hparam : m.params[k]? = some param) (harg : args[k]? = some actual) :
    h.Conforms current actual param.type ∧ h.IsType param.type := by
  obtain ⟨m', found', pairs⟩ := fits
  rw [← found.unique found', List.forall₂_iff_zip] at pairs
  obtain ⟨d, hd, hm⟩ := found.mem
  have paired : (m.params.zip args)[k]? = some (param, actual) :=
    List.getElem?_zip_eq_some.mpr ⟨hparam, harg⟩
  exact ⟨pairs.2 (List.mem_of_getElem? paired),
    complete.param d hd m hm param (List.mem_of_getElem? hparam)⟩

/-- At every site of an accepted program the value conforms to what is declared, which exists, and
the type of the value is one that arises. -/
theorem Accepted.site (accepted : p.Accepted h maxDepth) {actual declared : Name}
    (site : p.ConformanceSite (p.typeIn h maxDepth) c actual declared) :
    c ∈ p.classes ∧ h.Conforms c.name actual declared ∧ h.Arises actual ∧ h.IsType declared := by
  have rooted := Hierarchy.build_rooted accepted.built
  have resolves : ∀ {start method m},
      (p.typeIn h maxDepth).methods.resolve? h start method = some m →
        h.Resolves method start m := by
    intro start method m found
    exact (MethodTable.resolve?_eq_some_iff rooted (build_owned accepted.built)).mp found
  cases site with
  | argument node found hparam harg =>
    obtain ⟨side, _, arises, _⟩ := accepted.records node
    have found := resolves found
    have fits := SideCondition.dispatch_iff.mp side found.isDefined
    obtain ⟨conforms, exist⟩ := argument_fits accepted.complete found fits hparam harg
    exact ⟨node.class_mem, conforms,
      arises _ (List.mem_cons_of_mem _ (List.mem_of_getElem? harg)), exist⟩
  | staticArgument node found hparam harg =>
    obtain ⟨side, _, arises, _⟩ := accepted.records node
    obtain ⟨_, _, fits⟩ := SideCondition.staticDispatch_iff.mp side
    obtain ⟨conforms, exist⟩ :=
      argument_fits accepted.complete (resolves found) fits hparam harg
    exact ⟨node.class_mem, conforms,
      arises _ (List.mem_cons_of_mem _ (List.mem_of_getElem? harg)), exist⟩
  | staticReceiver node =>
    obtain ⟨side, _, arises, _⟩ := accepted.records node
    obtain ⟨known, conforms, _⟩ := SideCondition.staticDispatch_iff.mp side
    exact ⟨node.class_mem, conforms, arises _ List.mem_cons_self, Or.inr known⟩
  | assigned node bound =>
    obtain ⟨side, typed, arises, _⟩ := accepted.records node
    obtain ⟨_, t, bound', conforms⟩ := SideCondition.assign_iff.mp side
    rw [bound, Option.some.injEq] at bound'
    rw [← bound'] at conforms
    exact ⟨node.class_mem, conforms, arises _ List.mem_cons_self, typed _ _ bound⟩
  | letInit node present =>
    obtain ⟨side, _, arises, _⟩ := accepted.records node
    obtain ⟨_, exist, conforms⟩ := SideCondition.letIn_iff.mp side
    exact ⟨node.class_mem, conforms (Expr.isMissing_eq_false_iff.mp present),
      arises _ List.mem_cons_self, exist⟩
  | attributeInit hc hf present recorded =>
    have mem := List.mem_of_getElem? hc
    have memf := List.mem_of_getElem? hf
    have proper := accepted.proper mem
    obtain ⟨exist, silent, conforms⟩ := Setting.attribute_silent (accepted.typeFeature mem memf)
    rw [typeIn_node? hc hf, Typed.sub?, Option.some.injEq] at recorded
    rw [← recorded, Setting.typeFeature_node, Setting.typeExpr_node_type]
    rw [present, Setting.conforms_iff proper] at conforms
    exact ⟨mem, conforms.resolve_left Bool.false_ne_true,
      Setting.typeExpr_arises proper accepted.complete (classState_agrees h c)
        (accepted.declared_ofClass mem) silent, exist⟩
  | methodBody hc hf recorded =>
    have mem := List.mem_of_getElem? hc
    have memf := List.mem_of_getElem? hf
    have proper := accepted.proper mem
    obtain ⟨_, exist, silent, conforms⟩ := Setting.method_silent (accepted.typeFeature mem memf)
    rw [typeIn_node? hc hf, Typed.sub?, Option.some.injEq] at recorded
    rw [← recorded, Setting.typeFeature_node, Setting.typeExpr_node_type]
    rw [Setting.conforms_iff proper] at conforms
    exact ⟨mem, conforms,
      Setting.typeExpr_arises proper accepted.complete
        (Setting.featureState_agrees (classState_agrees h c) _)
        (accepted.declared_ofFeature mem memf) silent, exist⟩

/-- **Acceptance is sound but for missing expressions.**  In a program that is checked without an
error a dispatch finds its method, and a value is of a subclass of what is declared for it,
exactly where the type recorded for the receiver or the value is present. -/
theorem acceptance_exact {sink sink' : Sink} {a : Analysis}
    (checked : p.check maxDepth sink = (sink', .ok a)) : AcceptanceLaws p a := by
  obtain ⟨h, accepted, rfl⟩ := accepted_of_check checked
  have rooted := Hierarchy.build_rooted accepted.built
  have known : ∀ {c}, c ∈ p.classes → h.isDefined c.name = true :=
    fun mem => (accepted.proper mem).known
  constructor
  · intro i c j f path binders e hc hf he
    obtain ⟨s, agrees, _, recorded, silent⟩ := accepted.node hc hf he
    obtain ⟨line, form⟩ := e
    have agrees : s.deeper.vars.Agrees (TypeEnv.atNode h c f binders) := agrees
    rw [Setting.typeExpr_of_lt (Setting.lt_of_silent silent)] at recorded
    refine ⟨_, _, recorded, ?_⟩
    rw [Setting.infer_below agrees.consistent, List.length_map]
  · intro c Γ receiver method args r types node
    obtain ⟨side, _, arises, hlen⟩ := accepted.records node
    have typeKnown : h.IsType r ↔ h.isDefined (Name.resolve c.name r) = true :=
      Hierarchy.isType_iff (known node.class_mem)
    rw [present_iff (arises r List.mem_cons_self), typeKnown]
    constructor
    · exact fun sound => sound.1
    · intro defined
      have fits := SideCondition.dispatch_iff.mp side defined
      have found := findsMethod_of_callFits accepted fits
      have arity : types.length = args.length := by
        simpa [Form.parts] using hlen
      rw [arity] at found
      exact ⟨defined, found⟩
  · intro c Γ receiver named method args types node
    obtain ⟨side, _, _, hlen⟩ := accepted.records node
    cases side with
    | @staticDispatch _ _ _ _ r types known _ fits =>
      have found := findsMethod_of_callFits accepted fits
      have arity : types.length = args.length := by
        simpa [Form.parts] using hlen
      rw [arity] at found
      exact found
  · intro c actual declared site
    obtain ⟨mem, conforms, arises, exist⟩ := accepted.site site
    exact isSubclass_iff_present rooted (known mem) conforms arises exist

/-- The call in the body of a `let` is sound, as its receiver is a variable. -/
theorem acceptance_exact_call_in_let :
    ∃ sink, check ⟨[classWithLet]⟩ 1000 Sink.empty =
        (sink, .ok (typeIn ⟨[classWithLet]⟩ (declared ⟨[classWithLet]⟩) 1000)) ∧
      FindsMethod (typeIn ⟨[classWithLet]⟩ (declared ⟨[classWithLet]⟩) 1000) "Main" "main" 1 := by
  have checked : check ⟨[classWithLet]⟩ 1000 Sink.empty =
      (_, .ok (typeIn ⟨[classWithLet]⟩ (declared ⟨[classWithLet]⟩) 1000)) := rfl
  have laws := acceptance_exact checked
  have hc : (Program.mk [classWithLet]).classes[0]? = some classWithLet := rfl
  have hf : classWithLet.features[1]? = some methodWithLet := rfl
  have he : methodWithLet.root.at? [1] = some ([("y", "Main")], callInLet) := rfl
  have node := Records.node (p := ⟨[classWithLet]⟩)
    (a := typeIn ⟨[classWithLet]⟩ (declared ⟨[classWithLet]⟩) 1000) hc hf he rfl
  have receiver : Present (typeIn ⟨[classWithLet]⟩ (declared ⟨[classWithLet]⟩) 1000) "Main" :=
    fun missing => absurd missing (by decide)
  exact ⟨_, checked, ((laws.dispatch _ _ _ _ _ _ _ node).mpr receiver).2⟩

/-- A call on a missing expression. -/
def callOnMissing : Form :=
  .dispatch ⟨1, .noExpr⟩ "foo" []

/-- A class with a method whose body is `callOnMissing`. -/
def classWithCallOnMissing : Class :=
  ⟨1, "Main", "Object", "input.cl", [.method ⟨1, "f", [], "Object", ⟨1, callOnMissing⟩⟩]⟩

/-- A program is accepted without a diagnostic though the type recorded for a receiver is no class
and the method that is called is declared nowhere. -/
theorem accepted_call_on_missing :
    ∃ sink a Γ, check ⟨[classWithCallOnMissing]⟩ 1000 Sink.empty = (sink, .ok a) ∧
      sink.messages = [] ∧
      Records ⟨[classWithCallOnMissing]⟩ a classWithCallOnMissing Γ callOnMissing
        [Known.noType] ∧
      a.hierarchy.isDefined (Name.resolve "Main" Known.noType) = false ∧
      ∀ c ∈ a.hierarchy.classes, a.methods.declared? c.name "foo" = none := by
  have hc : (Program.mk [classWithCallOnMissing]).classes[0]? = some classWithCallOnMissing := rfl
  have hf : classWithCallOnMissing.features[0]? =
      some (.method ⟨1, "f", [], "Object", ⟨1, callOnMissing⟩⟩) := rfl
  have he : Expr.at? ⟨1, callOnMissing⟩ [] = some ([], ⟨1, callOnMissing⟩) := rfl
  have node := Records.node (p := ⟨[classWithCallOnMissing]⟩)
    (a := typeIn ⟨[classWithCallOnMissing]⟩ (declared ⟨[classWithCallOnMissing]⟩) 1000) hc hf he rfl
  exact ⟨_, _, _, rfl, rfl, node, by decide, by decide⟩

end Program

end SelfTyped
