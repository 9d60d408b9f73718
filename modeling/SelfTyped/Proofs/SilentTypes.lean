/-
SelfTyped.Proofs.SilentTypes — which types arise where nothing is reported.

The checker is lenient towards a type that does not exist, on the ground
that it was reported where it came up.  Here is what this amounts to for
an expression in which nothing is reported, in an environment whose types
exist: the type of every node in it exists, but for the type of a missing
expression, which nothing reports (`typeExpr_arises`).

The invariant is on environments: at every node the declared types of the
variables exist (`TypeEnv.Declared`), as the side conditions of `let` and
`case` ask for them.
-/
import SelfTyped.Proofs.TypeOrigins

namespace SelfTyped

variable {h : Hierarchy} {current t : Name} {Γ : TypeEnv} {form : Form} {types : List Name}
  {part : Part}

/-! ## Types that arise -/

namespace Hierarchy

/-- A type that exists, or the type of a missing expression. -/
def Arises (h : Hierarchy) (t : Name) : Prop :=
  h.IsType t ∨ t = Known.noType

/-- The types that a hierarchy speaks of exist. -/
structure Complete (h : Hierarchy) : Prop where
  basic : ∀ t, builtin.isDefined t = true → h.isDefined t = true
  result : ∀ c ∈ h.classes, ∀ m ∈ c.methods, h.IsType m.returnType
  param : ∀ c ∈ h.classes, ∀ m ∈ c.methods, ∀ param ∈ m.params, h.IsType param.type

/-- No rule but that of a missing expression makes up a type that does not exist. -/
theorem Complete.closed (complete : h.Complete) : h.Closed h.Arises where
  isType _ exist := Or.inl exist
  basic t builtin := Or.inl (Or.inr (complete.basic t builtin))
  result c hc m hm := Or.inl (complete.result c hc m hm)
  missing := Or.inr rfl

end Hierarchy

/-! ## Variables -/

namespace TypeEnv

/-- Every variable is declared with a type that exists. -/
def Declared (h : Hierarchy) (Γ : TypeEnv) : Prop :=
  ∀ name t, Γ name = some t → h.IsType t

theorem declared_bind (declared : Γ.Declared h) (name : Name) (exist : h.IsType t) :
    (Γ.bind name t).Declared h :=
  declaredIn_bind declared name exist

end TypeEnv

/-- The variables that a node binds are declared with types that exist. -/
theorem SideCondition.binder_isType {name : Name}
    (side : SideCondition h current Γ form types) (mem : part ∈ form.parts)
    (bound : part.binder = some (name, t)) : h.IsType t := by
  cases side with
  | case distinct notSelf known =>
    rcases List.mem_cons.mp mem with rfl | mem
    · exact absurd bound (by simp)
    · obtain ⟨branch, hbranch, rfl⟩ := List.mem_map.mp mem
      rw [Part.ofBranch_binder, Option.some.injEq, Prod.mk.injEq] at bound
      rw [← bound.2]
      exact Or.inr (known branch hbranch)
  | letIn notSelf known fits =>
    simp only [Form.parts, List.mem_cons, List.not_mem_nil, or_false] at mem
    rcases mem with rfl | rfl
    · exact absurd bound (by simp)
    · rw [Option.some.injEq, Prod.mk.injEq] at bound
      rw [← bound.2]
      exact known
  | dispatch | staticDispatch =>
    rcases List.mem_cons.mp mem with rfl | mem
    · exact absurd bound (by simp)
    · obtain ⟨item, _, rfl⟩ := List.mem_map.mp mem
      exact absurd bound (by simp)
  | block =>
    obtain ⟨item, _, rfl⟩ := List.mem_map.mp mem
    exact absurd bound (by simp)
  | cond =>
    simp only [Form.parts, List.mem_cons, List.not_mem_nil, or_false] at mem
    rcases mem with rfl | rfl | rfl <;> exact absurd bound (by simp)
  | loop | ints | equal =>
    simp only [Form.parts, List.mem_cons, List.not_mem_nil, or_false] at mem
    rcases mem with rfl | rfl <;> exact absurd bound (by simp)
  | assign | negate | complement | isVoid =>
    rw [List.mem_singleton.mp mem] at bound
    exact absurd bound (by simp)
  | object | int | bool | string | new | noExpr => exact absurd mem List.not_mem_nil

theorem SideCondition.declared_under (side : SideCondition h current Γ form types)
    (declared : Γ.Declared h) (mem : part ∈ form.parts) :
    (Γ.under part.binder).Declared h := by
  cases bound : part.binder with
  | none => exact declared
  | some binder => exact TypeEnv.declared_bind declared _ (side.binder_isType mem bound)

/-! ## Expressions -/

namespace Setting

variable {g : Setting} {s : CheckState}

/-- Where nothing is reported the nesting limit is not met. -/
theorem lt_of_silent {e : Expr} (silent : (g.typeExpr s e).findings = []) :
    s.depth < g.maxDepth := by
  obtain ⟨line, form⟩ := e
  by_contra cut
  rw [typeExpr, if_pos (Nat.not_lt.mp cut)] at silent
  exact absurd silent (by simp [cutOff, report])

theorem part_of_silent (consistent : s.vars.Consistent) {line : Nat} {part : Part}
    (silent : (g.typeExpr s ⟨line, form⟩).findings = []) (mem : part ∈ form.parts) :
    (g.partOutcome s.deeper part).findings = [] := by
  have inside : s.deeper.vars.Consistent := consistent
  have stretch := infer_findings_part (g := g) inside line mem
  rw [typeExpr_of_lt (lt_of_silent silent)] at silent
  exact List.infix_nil.mp (silent ▸ stretch)

/-- Where nothing is reported, nothing is reported in the parts, and the side condition holds. -/
theorem parts_of_silent (proper : g.Proper) (agrees : s.vars.Agrees Γ) {line : Nat}
    (silent : (g.typeExpr s ⟨line, form⟩).findings = []) :
    (∀ part ∈ form.parts, (g.partOutcome s.deeper part).findings = []) ∧
      SideCondition g.hierarchy g.current.name Γ form (form.parts.map (g.partType s.deeper)) := by
  have agrees : s.deeper.vars.Agrees Γ := agrees
  rw [typeExpr_of_lt (lt_of_silent silent)] at silent
  exact (infer_eq_nil proper agrees line form).mp silent

/-- **Where nothing is reported, types exist**, but for that of a missing expression. -/
theorem typeExpr_arises (proper : g.Proper) (complete : g.hierarchy.Complete)
    (agrees : s.vars.Agrees Γ) (declared : Γ.Declared g.hierarchy) {e : Expr}
    (silent : (g.typeExpr s e).findings = []) : g.hierarchy.Arises (g.typeExpr s e).type := by
  have unreported : ∀ t, ReportsUndefined (g.typeExpr s e).findings t → g.hierarchy.Arises t := by
    rintro t ⟨f, mem, -⟩
    rw [silent] at mem
    exact absurd mem List.not_mem_nil
  rw [← typeExpr_node_type]
  exact typeExpr_closed proper complete.closed agrees (fun x t bound => Or.inl (declared x t bound))
    unreported [] _ rfl

/-- The checker comes to every node of an expression in which nothing is reported.  Nothing is
reported there either, and the types of the variables exist. -/
theorem typeExpr_at_silent (proper : g.Proper) (agrees : s.vars.Agrees Γ)
    (declared : Γ.Declared g.hierarchy) {e node : Expr} {path : List Nat}
    {binders : List (Name × Name)} (silent : (g.typeExpr s e).findings = [])
    (found : e.at? path = some (binders, node)) :
    ∃ inside : CheckState, inside.vars.Agrees (Γ.bindAll binders) ∧
      (Γ.bindAll binders).Declared g.hierarchy ∧
      (g.typeExpr s e).node.sub? path = some (g.typeExpr inside node).node ∧
      (g.typeExpr inside node).findings = [] := by
  induction path generalizing e s Γ binders with
  | nil =>
    rw [Expr.at?, Option.some.injEq, Prod.mk.injEq] at found
    obtain ⟨rfl, rfl⟩ := found
    exact ⟨s, agrees, declared, rfl, silent⟩
  | cons i path ih =>
    obtain ⟨line, form⟩ := e
    obtain ⟨part, inner, hpart, hnode, rfl⟩ := Expr.at?_cons.mp found
    have mem := List.mem_of_getElem? hpart
    obtain ⟨parts, side⟩ := parts_of_silent proper agrees silent
    have agrees : s.deeper.vars.Agrees Γ := agrees
    obtain ⟨inside, agrees', declared', recorded, silent'⟩ :=
      ih (agrees_under agrees part.binder) (side.declared_under declared mem) (parts part mem) hnode
    rw [TypeEnv.bindAll_under]
    refine ⟨inside, agrees', declared', ?_, silent'⟩
    rw [typeExpr_sub?_cons (lt_of_silent silent) agrees.consistent hpart]
    exact recorded

/-! ## Features -/

/-- An attribute about which nothing is reported. -/
theorem attribute_silent {a : Attribute}
    (silent : (g.typeFeature s (.attr a)).findings = []) :
    g.hierarchy.IsType a.type ∧ (g.typeExpr s a.init).findings = [] ∧
      (a.init.isMissing = true ∨ g.conforms (g.typeExpr s a.init).type a.type = true) := by
  change (g.typeAttribute s a).findings = [] at silent
  simp only [typeAttribute, List.append_eq_nil_iff, require_eq_nil,
    isDeclarable_iff, Bool.or_eq_true] at silent
  exact silent.2

theorem bindFormals_silent {formals : List Formal}
    {state : CheckState × List Finding} (silent : (formals.foldl g.bindFormal state).2 = []) :
    state.2 = [] ∧ ∀ f ∈ formals, g.checkFormalType f = [] := by
  induction formals generalizing state with
  | nil => exact ⟨silent, by simp⟩
  | cons first rest ih =>
    obtain ⟨here, others⟩ := ih silent
    have step : state.2 = [] ∧ g.checkFormalType first = [] := by
      rw [bindFormal] at here
      split at here
      · exact absurd here (by simp [report])
      · split at here
        · exact absurd here (by simp [report])
        · exact List.append_eq_nil_iff.mp here
    exact ⟨step.1, List.forall_mem_cons.mpr ⟨step.2, others⟩⟩

/-- A method about which nothing is reported. -/
theorem method_silent {m : Method}
    (silent : (g.typeFeature s (.method m)).findings = []) :
    (∀ f ∈ m.formals, g.hierarchy.isDefined f.type = true) ∧ g.hierarchy.IsType m.returnType ∧
      (g.typeExpr (g.featureState s (.method m)) m.body).findings = [] ∧
      g.conforms (g.typeExpr (g.featureState s (.method m)) m.body).type m.returnType = true := by
  change (g.typeMethod s m).findings = [] at silent
  simp only [typeMethod, List.append_eq_nil_iff, require_eq_nil,
    isDeclarable_iff] at silent
  refine ⟨fun f mem => ?_, silent.2⟩
  have checked := (bindFormals_silent silent.1).2 f mem
  rw [checkFormalType] at checked
  split at checked
  · exact absurd checked (by simp [report])
  · exact require_eq_nil.mp checked

end Setting

end SelfTyped
