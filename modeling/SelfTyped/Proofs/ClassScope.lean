/-
SelfTyped.Proofs.ClassScope — the variables of a class and of its methods.

`TypeEnv.ofClass` and `TypeEnv.ofFeature` say, as functions, which
variables the body of a feature sees: `self`, the attributes of the class
and its ancestors, and the formal parameters of the method.  The checker
keeps scopes with an index in their place; `Variables.Agrees` relates the
two, and every operation of the checker on its scopes keeps them related
(`agrees_ofClass`, `agrees_under`, `featureState_agrees`).
-/
import SelfTyped.Proofs.Judgement
import SelfTyped.Proofs.Restoration

namespace SelfTyped

variable {h : Hierarchy} {c : ClassSignature} {Γ : TypeEnv} {vars : Variables} {name type : Name}
  {g : Setting} {s : CheckState}

/-! ## Environments -/

/-- The attributes that a class has, those of the closest ancestor first and its own last. -/
def attributesInScope (h : Hierarchy) (c : ClassSignature) : List AttributeSignature :=
  ((h.ancestors c.name).drop 1).flatMap ClassSignature.attributes ++ c.attributes

namespace TypeEnv

/-- Attributes are added whose names are free; of those of one name the first counts. -/
def withAttributes (Γ : TypeEnv) (attributes : List AttributeSignature) : TypeEnv :=
  fun name =>
    (Γ name).or ((attributes.find? fun a => a.name == name).map AttributeSignature.type)

/-- The variables of a class: `self`, and its attributes. -/
def ofClass (h : Hierarchy) (c : ClassSignature) : TypeEnv :=
  withAttributes (fun name => if name = Known.self then some Known.selfType else none)
    (attributesInScope h c)

/-- Formal parameters hide other variables but `self`; of those of one name the first counts. -/
def withFormals (Γ : TypeEnv) (formals : List Formal) : TypeEnv :=
  fun name =>
    if name = Known.self then Γ name
    else ((formals.find? fun f => f.name == name).map Formal.type).or (Γ name)

/-- The variables that the initializer or body of a feature sees. -/
def ofFeature (h : Hierarchy) (c : ClassSignature) : Feature → TypeEnv
  | .attr _ => ofClass h c
  | .method m => (ofClass h c).withFormals m.formals

theorem withAttributes_cons (Γ : TypeEnv) (a : AttributeSignature)
    (rest : List AttributeSignature) :
    Γ.withAttributes (a :: rest) = (Γ.withAttributes [a]).withAttributes rest := by
  funext name
  rw [withAttributes, withAttributes, withAttributes, Option.or_assoc, ← Option.map_or,
    ← List.find?_append, List.singleton_append]

/-- Adding attributes hides nothing. -/
theorem withAttributes_of_some {name t : Name} (bound : Γ name = some t)
    (attributes : List AttributeSignature) : Γ.withAttributes attributes name = some t := by
  rw [withAttributes, bound, Option.some_or]

theorem isSome_withAttributes {name : Name} (bound : (Γ name).isSome = true)
    (attributes : List AttributeSignature) :
    (Γ.withAttributes attributes name).isSome = true := by
  rw [withAttributes, Option.isSome_or, bound, Bool.true_or]

theorem withAttributes_taken {a : AttributeSignature} (taken : (Γ a.name).isSome = true) :
    Γ.withAttributes [a] = Γ := by
  funext name
  rw [withAttributes, List.find?_singleton]
  split
  · next hit =>
    obtain ⟨type, bound⟩ := Option.isSome_iff_exists.mp taken
    rw [← beq_iff_eq.mp hit, bound, Option.some_or]
  · rw [Option.map_none, Option.or_none]

theorem withAttributes_free {a : AttributeSignature} (free : Γ a.name = none) :
    Γ.withAttributes [a] = Function.update Γ a.name (some a.type) := by
  funext name
  rw [withAttributes, List.find?_singleton]
  by_cases hit : a.name = name
  · subst hit
    rw [beq_self_eq_true, if_pos rfl, free, Function.update_self]
    rfl
  · rw [beq_false_of_ne hit, Function.update_of_ne (Ne.symm hit)]
    exact Option.or_none

theorem withFormals_nil (Γ : TypeEnv) : Γ.withFormals [] = Γ := by
  funext name
  rw [withFormals]
  split <;> rfl

/-- A formal named `self`, or like an earlier one, is no variable. -/
theorem withFormals_concat_skipped {before : List Formal} {f : Formal}
    (skipped : f.name = Known.self ∨ f.name ∈ before.map Formal.name) :
    Γ.withFormals (before ++ [f]) = Γ.withFormals before := by
  funext name
  rw [withFormals, withFormals]
  split
  · rfl
  · next notSelf =>
    rw [List.find?_append, List.find?_singleton]
    split
    · next hit =>
      rw [← beq_iff_eq.mp hit] at notSelf ⊢
      obtain ⟨earlier, mem, same⟩ := List.mem_map.mp (skipped.resolve_left notSelf)
      have found : (before.find? fun f' => f'.name == f.name).isSome = true :=
        List.find?_isSome.mpr ⟨earlier, mem, beq_iff_eq.mpr same⟩
      obtain ⟨first, found⟩ := Option.isSome_iff_exists.mp found
      rw [found, Option.some_or]
    · rw [Option.or_none]

theorem withFormals_concat_bound {before : List Formal} {f : Formal}
    (notSelf : f.name ≠ Known.self) (fresh : f.name ∉ before.map Formal.name) :
    Γ.withFormals (before ++ [f]) =
      Function.update (Γ.withFormals before) f.name (some f.type) := by
  funext name
  rw [withFormals, List.find?_append, List.find?_singleton]
  by_cases hit : f.name = name
  · subst hit
    have missing : (before.find? fun f' => f'.name == f.name) = none := by
      rw [List.find?_eq_none]
      intro earlier mem same
      exact fresh (List.mem_map.mpr ⟨earlier, mem, beq_iff_eq.mp same⟩)
    rw [missing, beq_self_eq_true, if_neg notSelf, if_pos rfl, Function.update_self]
    rfl
  · rw [beq_false_of_ne hit, Function.update_of_ne (Ne.symm hit), withFormals]
    rw [if_neg Bool.false_ne_true, Option.or_none]

end TypeEnv

/-! ## Scopes -/

/-- Scopes bind the variables of an environment. -/
structure Variables.Agrees (vars : Variables) (Γ : TypeEnv) : Prop where
  consistent : Scoped.Consistent vars
  lookup : ∀ name, Scoped.lookup vars name = Γ name

theorem agrees_enter (agrees : vars.Agrees Γ) : Variables.Agrees (Scoped.enter vars) Γ where
  consistent := Scoped.consistent_enter agrees.consistent
  lookup := by
    intro name
    rw [Scoped.lookup_enter agrees.consistent, agrees.lookup]

theorem agrees_bind (agrees : vars.Agrees Γ) (name type : Name) :
    Variables.Agrees (Scoped.bind vars name type).2 (Function.update Γ name (some type)) where
  consistent := Scoped.consistent_bind agrees.consistent name type
  lookup := by
    intro other
    rw [Scoped.lookup_bind agrees.consistent]
    by_cases same : name = other
    · rw [if_pos same, same, Function.update_self]
    · rw [if_neg same, agrees.lookup, Function.update_of_ne (Ne.symm same)]

theorem agrees_under (agrees : s.vars.Agrees Γ) (binder : Binder) :
    (s.under binder).vars.Agrees (Γ.under binder) := by
  match binder with
  | none => exact agrees
  | some (name, type) =>
    rw [CheckState.under_some, CheckState.enterWith_vars, TypeEnv.under, TypeEnv.bind]
    split
    · exact agrees_enter agrees
    · exact agrees_bind (agrees_enter agrees) name type

/-! ## The class scope -/

theorem agrees_inherit (agrees : vars.Agrees Γ) (self : (Γ Known.self).isSome = true)
    (a : AttributeSignature) : (vars.inherit a).Agrees (Γ.withAttributes [a]) := by
  rw [Variables.inherit, agrees.lookup]
  split
  · next taken =>
    rw [TypeEnv.withAttributes_taken]
    · exact agrees
    · rcases taken with isSelf | taken
      · rw [isSelf]
        exact self
      · exact taken
  · next free =>
    rw [not_or, Bool.not_eq_true, Option.isSome_eq_false_iff, Option.isNone_iff_eq_none] at free
    rw [TypeEnv.withAttributes_free free.2]
    exact agrees_bind agrees a.name a.type

theorem agrees_inheritAll (attributes : List AttributeSignature) (agrees : vars.Agrees Γ)
    (self : (Γ Known.self).isSome = true) :
    (attributes.foldl Variables.inherit vars).Agrees (Γ.withAttributes attributes) := by
  induction attributes generalizing vars Γ with
  | nil =>
    have unchanged : Γ.withAttributes [] = Γ := funext fun name => Option.or_none
    rw [unchanged]
    exact agrees
  | cons first rest ih =>
    rw [List.foldl_cons, TypeEnv.withAttributes_cons]
    exact ih (agrees_inherit agrees self first) (TypeEnv.isSome_withAttributes self [first])

/-- Own attributes enter the scope as inherited ones do. -/
theorem declareAll_fst (attributes : List AttributeSignature) (state : Variables × List Finding) :
    (attributes.foldl (Variables.declare c) state).1 =
      attributes.foldl Variables.inherit state.1 := by
  induction attributes generalizing state with
  | nil => rfl
  | cons first rest ih =>
    rw [List.foldl_cons, List.foldl_cons, ih]
    congr 1
    rw [Variables.declare, Variables.inherit]
    by_cases isSelf : first.name = Known.self
    · simp [isSelf]
    · by_cases taken : (Scoped.lookup state.1 first.name).isSome = true <;> simp [isSelf, taken]

theorem agrees_ofEveryClass : Variables.ofEveryClass.Agrees
    fun name => if name = Known.self then some Known.selfType else none where
  consistent := Scoped.consistent_bind Scoped.consistent_empty _ _
  lookup := by
    intro name
    rw [Variables.ofEveryClass, Scoped.lookup_bind Scoped.consistent_empty, Scoped.lookup_empty]
    by_cases isSelf : name = Known.self
    · rw [if_pos isSelf, if_pos isSelf.symm]
    · rw [if_neg isSelf, if_neg (Ne.symm isSelf)]

/-- **The class scope** binds `self` and the attributes. -/
theorem agrees_ofClass (h : Hierarchy) (c : ClassSignature) :
    (Variables.ofClass h c).1.Agrees (TypeEnv.ofClass h c) := by
  rw [Variables.ofClass, declareAll_fst, ← List.foldl_append]
  exact agrees_inheritAll _ agrees_ofEveryClass rfl

/-! ## Formal parameters -/

/-- The checker is in the scope of a method, and has bound some of its formal parameters. -/
structure Setting.BindsFormals (s : CheckState) (Γ : TypeEnv) (before : List Formal)
    (inside : CheckState) : Prop where
  agrees : inside.vars.Agrees (Γ.withFormals before)
  here : ∀ name, name ≠ Known.self →
    (inside.vars.boundHere name = true ↔ name ∈ before.map Formal.name)
  leaves : inside.vars.leave? = some s.vars
  inner : inside.vars.inner ≠ []
  depth : inside.depth = s.depth

theorem bindsFormals_nil (agrees : s.vars.Agrees Γ) : Setting.BindsFormals s Γ [] s.enter where
  agrees := by
    rw [TypeEnv.withFormals_nil]
    exact agrees_enter agrees
  here := by
    intro name _
    change Scoped.boundHere (Scoped.enter s.vars) name = true ↔ _
    rw [Scoped.boundHere_enter]
    simp
  leaves := rfl
  inner := List.cons_ne_nil _ _
  depth := rfl

theorem bindsFormals_concat {before : List Formal} {inside : CheckState}
    {findings : List Finding} (binds : Setting.BindsFormals s Γ before inside) (f : Formal) :
    Setting.BindsFormals s Γ (before ++ [f]) (g.bindFormal (inside, findings) f).1 := by
  have skip : f.name = Known.self ∨ f.name ∈ before.map Formal.name →
      Setting.BindsFormals s Γ (before ++ [f]) inside := by
    intro skipped
    refine { binds with agrees := ?_, here := ?_ }
    · rw [TypeEnv.withFormals_concat_skipped skipped]
      exact binds.agrees
    · intro name notSelf
      rw [binds.here name notSelf, List.map_append, List.map_singleton, List.mem_append,
        List.mem_singleton]
      refine ⟨Or.inl, fun either => either.elim id ?_⟩
      rintro rfl
      exact skipped.resolve_left notSelf
  rw [Setting.bindFormal]
  split
  · next isSelf => exact skip (Or.inl isSelf)
  · next notSelf =>
    split
    · next taken => exact skip (Or.inr ((binds.here f.name notSelf).mp taken))
    · next free =>
      have fresh : f.name ∉ before.map Formal.name :=
        fun mem => free ((binds.here f.name notSelf).mpr mem)
      rw [Bool.not_eq_true] at free
      constructor
      · rw [TypeEnv.withFormals_concat_bound notSelf fresh]
        exact agrees_bind binds.agrees f.name f.type
      · intro name notSelf
        change Scoped.boundHere (Scoped.bind inside.vars f.name f.type).2 name = true ↔ _
        rw [Scoped.boundHere_bind, List.map_append, List.map_singleton, List.mem_append,
          List.mem_singleton, ← binds.here name notSelf, Bool.or_eq_true, decide_eq_true_iff,
          or_comm, eq_comm (a := f.name)]
      · change Scoped.leave? (Scoped.bind inside.vars f.name f.type).2 = _
        rw [Scoped.leave?_bind binds.agrees.consistent.noEmpty binds.inner free, binds.leaves]
      · change (Scoped.bind inside.vars f.name f.type).2.inner ≠ []
        cases split : inside.vars.inner with
        | nil => exact absurd split binds.inner
        | cons scope outer => simp [Scoped.bind, Scoped.setCurrent, split]
      · exact binds.depth

theorem bindsFormals_foldl (agrees : s.vars.Agrees Γ) (formals : List Formal) :
    Setting.BindsFormals s Γ formals (formals.foldl g.bindFormal (s.enter, [])).1 := by
  induction formals using List.reverseRecOn with
  | nil => exact bindsFormals_nil agrees
  | append_singleton before f ih =>
    rw [List.foldl_append, List.foldl_cons, List.foldl_nil]
    exact bindsFormals_concat ih f

/-! ## Features -/

namespace Setting

/-- The state in which the initializer or body of a feature is checked, given that of the class
scope. -/
def featureState (g : Setting) (s : CheckState) : Feature → CheckState
  | .attr _ => s
  | .method m => (m.formals.foldl g.bindFormal (s.enter, [])).1

/-- A feature sees the variables of the class and, in a method, the formal parameters. -/
theorem featureState_agrees (agrees : s.vars.Agrees (TypeEnv.ofClass h c)) (f : Feature) :
    (g.featureState s f).vars.Agrees (TypeEnv.ofFeature h c f) := by
  cases f with
  | attr a => exact agrees
  | method m => exact (bindsFormals_foldl agrees m.formals).agrees

theorem featureState_consistent (agrees : s.vars.Agrees Γ) (f : Feature) :
    (g.featureState s f).vars.Consistent := by
  cases f with
  | attr a => exact agrees.consistent
  | method m => exact (bindsFormals_foldl agrees m.formals).agrees.consistent

theorem featureState_depth (agrees : s.vars.Agrees Γ) (f : Feature) :
    (g.featureState s f).depth = s.depth := by
  cases f with
  | attr a => rfl
  | method m => exact (bindsFormals_foldl agrees m.formals).depth

theorem typeFeature_node (g : Setting) (s : CheckState) (f : Feature) :
    (g.typeFeature s f).node = (g.typeExpr (g.featureState s f) f.root).node := by
  cases f <;> rfl

/-- What is found in the initializer or body is one stretch of what is found in the feature. -/
theorem typeFeature_findings_part (g : Setting) (s : CheckState) (f : Feature) :
    (g.typeExpr (g.featureState s f) f.root).findings <:+: (g.typeFeature s f).findings := by
  cases f <;>
    exact List.infix_append_of_infix_right
      (List.infix_append_of_infix_right List.infix_append_left)

/-- Checking a feature restores the class scope. -/
theorem typeFeature_state (agrees : s.vars.Agrees Γ) (f : Feature) :
    (g.typeFeature s f).state = s := by
  cases f with
  | attr a => exact typeExpr_state agrees.consistent a.init
  | method m =>
    have binds := bindsFormals_foldl (g := g) agrees m.formals
    change (g.typeExpr (m.formals.foldl g.bindFormal (s.enter, [])).1 m.body).state.leave = s
    rw [typeExpr_state binds.agrees.consistent, CheckState.leave, binds.leaves, Option.getD_some]
    obtain ⟨vars, depth⟩ := s
    rw [CheckState.mk.injEq]
    exact ⟨rfl, binds.depth⟩

/-- Every feature of a class is checked in the class scope. -/
theorem typeFeatures_eq (agrees : s.vars.Agrees Γ) (features : List Feature) :
    g.typeFeatures s features =
      ⟨features.map fun f => ⟨f, (g.typeFeature s f).node⟩,
        features.flatMap fun f => (g.typeFeature s f).findings, s⟩ := by
  induction features with
  | nil => rfl
  | cons first rest ih =>
    rw [typeFeatures, typeFeature_state agrees, ih]
    rfl

end Setting

end SelfTyped
