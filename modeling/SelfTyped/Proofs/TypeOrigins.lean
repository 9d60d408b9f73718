/-
SelfTyped.Proofs.TypeOrigins — where the types of expressions come from.

No rule makes up a type.  A set of types that holds all types that exist,
the type of a missing expression, and the declared results of methods is
closed under the rules (`Hierarchy.Closed`): if it holds the types of the
variables in scope and those of the parts of an expression, it holds the
type of the expression (`Rule.closed`).

Variables are bound on the way down, some of them with types that do not
exist.  Each of these is reported where the variable is bound
(`infer_binder_accounted`), so it is enough to ask that the set holds the types that
are reported as undefined: then it holds all types that the checker records
(`typeExpr_closed`).  Whether anything is reported does not matter to this.
-/
import SelfTyped.Proofs.Exactness

namespace SelfTyped

/-- The type that is reported as undefined where an attribute, a parameter, a variable or the
result of a method is declared. -/
def TypeError.undefinedType? : TypeError → Option Name
  | .undefinedAttributeType _ type => some type
  | .undefinedFormalType _ type => some type
  | .undefinedLetType _ type => some type
  | .undefinedCaseBranchType type => some type
  | .undefinedReturnType _ type => some type
  | _ => none

/-- A type is reported as undefined. -/
def ReportsUndefined (findings : List Finding) (t : Name) : Prop :=
  ∃ f ∈ findings, f.error.undefinedType? = some t

theorem ReportsUndefined.widen {part all : List Finding} {t : Name}
    (reported : ReportsUndefined part t) (stretch : part <:+: all) : ReportsUndefined all t := by
  obtain ⟨f, mem, undefined⟩ := reported
  exact ⟨f, stretch.subset mem, undefined⟩

/-- A type exists, or it is reported as undefined. -/
def Accounted (h : Hierarchy) (findings : List Finding) (t : Name) : Prop :=
  h.IsType t ∨ ReportsUndefined findings t

theorem Accounted.widen {h : Hierarchy} {part all : List Finding} {t : Name}
    (accounted : Accounted h part t) (stretch : part <:+: all) : Accounted h all t :=
  accounted.imp_right fun reported => reported.widen stretch

variable {h : Hierarchy} {current t : Name} {Γ : TypeEnv} {form : Form} {types : List Name}
  {P : Name → Prop}

/-! ## Rules -/

namespace Hierarchy

/-- A set of types that no rule leads out of. -/
structure Closed (h : Hierarchy) (P : Name → Prop) : Prop where
  isType : ∀ t, h.IsType t → P t
  basic : ∀ t, builtin.isDefined t = true → P t
  result : ∀ c ∈ h.classes, ∀ m ∈ c.methods, P m.returnType
  missing : P Known.noType

theorem Resolves.mem {method start : Name} {m : MethodSignature}
    (resolves : h.Resolves method start m) : ∃ c ∈ h.classes, m ∈ c.methods := by
  induction resolves with
  | own found first => exact ⟨_, (find?_mem found).1, List.mem_of_find?_eq_some first⟩
  | inherited _ _ _ _ ih => exact ih

theorem CallType.closed {start method receiver : Name} (closed : h.Closed P)
    (receiverIn : P receiver) (call : h.CallType start method receiver t) : P t := by
  cases call with
  | @found m declared =>
    obtain ⟨c, hc, hm⟩ := declared.mem
    rw [MethodSignature.typeFor]
    split
    · exact receiverIn
    · exact closed.result c hc m hm
  | missing => exact closed.basic _ (by decide)

theorem Joins.closed {a b c : Name} (rooted : h.Rooted) (known : h.isDefined current = true)
    (closed : h.Closed P) (ha : P a) (join : h.Joins current a b c) : P c := by
  cases join with
  | same => exact ha
  | unknown => exact closed.basic _ (by decide)
  | least _ exist _ left =>
    exact closed.isType _ (Or.inr (left.isDefined rooted ((isType_iff known).mp exist)))

theorem JoinsFrom.closed {a c : Name} (rooted : h.Rooted) (known : h.isDefined current = true)
    (closed : h.Closed P) (ha : P a) (joins : h.JoinsFrom current a types c) : P c := by
  induction joins with
  | nil => exact ha
  | cons first _ ih => exact ih (first.closed rooted known closed ha)

theorem JoinsAll.closed {c : Name} (rooted : h.Rooted) (known : h.isDefined current = true)
    (closed : h.Closed P) (all : ∀ a ∈ types, P a) (joins : h.JoinsAll current types c) : P c := by
  cases joins with
  | none => exact closed.basic _ (by decide)
  | some joins => exact joins.closed rooted known closed (all _ List.mem_cons_self)

end Hierarchy

/-- Every variable is declared with a type of the set. -/
def TypeEnv.DeclaredIn (P : Name → Prop) (Γ : TypeEnv) : Prop :=
  ∀ name t, Γ name = some t → P t

theorem TypeEnv.declaredIn_bind (declared : Γ.DeclaredIn P) (name : Name) (ht : P t) :
    (Γ.bind name t).DeclaredIn P := by
  intro other t' bound
  rw [bind] at bound
  split at bound
  · exact declared other t' bound
  · by_cases same : other = name
    · rw [same, Function.update_self, Option.some.injEq] at bound
      rw [← bound]
      exact ht
    · rw [Function.update_of_ne same] at bound
      exact declared other t' bound

theorem TypeEnv.declaredIn_under {binder : Binder} (declared : Γ.DeclaredIn P)
    (bound : ∀ name t, binder = some (name, t) → P t) : (Γ.under binder).DeclaredIn P := by
  cases binder with
  | none => exact declared
  | some binder => exact declaredIn_bind declared _ (bound _ _ rfl)

/-- **No rule makes up a type.** -/
theorem Rule.closed (rooted : h.Rooted) (known : h.isDefined current = true)
    (closed : h.Closed P) (declared : Γ.DeclaredIn P) (parts : ∀ a ∈ types, P a)
    (rule : Rule h current Γ form types t) : P t := by
  cases rule with
  | object bound => exact declared _ _ bound
  | assign => exact parts t List.mem_cons_self
  | dispatch call | staticDispatch call => exact call.closed closed (parts _ List.mem_cons_self)
  | cond join =>
    exact join.closed rooted known closed (parts _ (List.mem_cons_of_mem _ List.mem_cons_self))
  | case joins =>
    exact joins.closed rooted known closed fun a mem => parts a (List.mem_cons_of_mem _ mem)
  | block =>
    cases types with
    | nil => exact closed.basic _ (by decide)
    | cons a rest =>
      rw [List.getLastD_eq_getLast?, List.getLast?_eq_some_getLast (List.cons_ne_nil a rest)]
      exact parts _ (List.getLast_mem _)
  | letIn => exact parts t (List.mem_cons_of_mem _ List.mem_cons_self)
  | new known => exact closed.isType _ known
  | noExpr => exact closed.missing
  | _ => exact closed.basic _ (by decide)

/-! ## Binders -/

namespace Setting

variable {g : Setting} {s : CheckState} {part : Part} {name : Name}

theorem reportsUndefined_require {condition : Bool} {line : Nat} {error : TypeError}
    (undefined : error.undefinedType? = some t) :
    condition = true ∨ ReportsUndefined (g.require condition line error) t := by
  cases condition with
  | true => exact Or.inl rfl
  | false => exact Or.inr ⟨_, List.mem_singleton.mpr rfl, undefined⟩

/-- Where a type may be declared, one that does not exist is reported. -/
theorem accounted_declarable {line : Nat} {error : TypeError}
    (undefined : error.undefinedType? = some t) :
    Accounted g.hierarchy (g.require (g.isDeclarable t) line error) t :=
  (reportsUndefined_require undefined).imp_left isDeclarable_iff.mp

/-- Where a class has to be declared, one that does not exist is reported. -/
theorem accounted_defined {line : Nat} {error : TypeError}
    (undefined : error.undefinedType? = some t) :
    Accounted g.hierarchy (g.require (g.hierarchy.isDefined t) line error) t :=
  (reportsUndefined_require undefined).imp_left Or.inr

theorem checkLet_accounted (line : Nat) (name : Name) (init : Option Name) :
    Accounted g.hierarchy (g.checkLet line name t init) t := by
  have declared : Accounted g.hierarchy
      (g.require (g.isDeclarable t) line (.undefinedLetType name t)) t := accounted_declarable rfl
  exact declared.widen (List.infix_append_of_infix_right List.infix_append_left)

theorem checkBranch_accounted (line : Nat) (earlier : List Name) (name : Name) :
    Accounted g.hierarchy (g.checkBranch line earlier name t) t := by
  by_cases isSelfType : t = Known.selfType
  · exact Or.inl (Or.inl isSelfType)
  · have declared : Accounted g.hierarchy
        (g.require (g.hierarchy.isDefined t) line (.undefinedCaseBranchType t)) t :=
      accounted_defined rfl
    rw [checkBranch, if_neg isSelfType]
    exact declared.widen
      (List.infix_append_of_infix_right (List.infix_append_of_infix_right List.infix_rfl))

theorem typeBranches_accounted (consistent : s.vars.Consistent) {earlier : List Name}
    {joined : Option Name} {branches : List Branch} {branch : Branch} (mem : branch ∈ branches) :
    Accounted g.hierarchy (g.typeBranches s earlier joined branches).findings branch.type := by
  induction branches generalizing earlier joined with
  | nil => exact absurd mem List.not_mem_nil
  | cons first rest ih =>
    rw [typeBranches_cons consistent]
    rcases List.mem_cons.mp mem with rfl | mem
    · exact (checkBranch_accounted branch.line earlier branch.name).widen List.infix_append_left
    · exact (ih mem).widen
        (List.infix_append_of_infix_right (List.infix_append_of_infix_right List.infix_rfl))

/-- A variable that is bound in an expression has a type that exists or is reported. -/
theorem infer_binder_accounted (consistent : s.vars.Consistent) (line : Nat)
    (mem : part ∈ form.parts) (bound : part.binder = some (name, t)) :
    Accounted g.hierarchy (g.infer s line form).findings t := by
  have restored := fun e => typeExpr_state (g := g) consistent e
  cases form with
  | case scrutinee branches =>
    rcases List.mem_cons.mp mem with rfl | mem
    · exact absurd bound (by simp)
    · obtain ⟨branch, hbranch, rfl⟩ := List.mem_map.mp mem
      rw [Part.ofBranch_binder, Option.some.injEq, Prod.mk.injEq] at bound
      rw [infer, restored, ← bound.2]
      exact (typeBranches_accounted consistent hbranch).widen
        (List.infix_append_of_infix_right List.infix_rfl)
  | letIn x type init body =>
    simp only [Form.parts, List.mem_cons, List.not_mem_nil, or_false] at mem
    rcases mem with rfl | rfl
    · exact absurd bound (by simp)
    · rw [Option.some.injEq, Prod.mk.injEq] at bound
      rw [infer, ← bound.2]
      exact (checkLet_accounted line x _).widen
        (List.infix_append_of_infix_right List.infix_append_left)
  | dispatch | staticDispatch =>
    rcases List.mem_cons.mp mem with rfl | mem
    · exact absurd bound (by simp)
    · obtain ⟨item, _, rfl⟩ := List.mem_map.mp mem
      exact absurd bound (by simp)
  | block =>
    obtain ⟨item, _, rfl⟩ := List.mem_map.mp mem
    exact absurd bound (by simp)
  | cond =>
    simp only [Form.parts, List.mem_cons, List.not_mem_nil, or_false] at mem
    rcases mem with rfl | rfl | rfl <;> exact absurd bound (by simp)
  | loop | binary =>
    simp only [Form.parts, List.mem_cons, List.not_mem_nil, or_false] at mem
    rcases mem with rfl | rfl <;> exact absurd bound (by simp)
  | assign | negate | complement | isVoid =>
    rw [List.mem_singleton.mp mem] at bound
    exact absurd bound (by simp)
  | object | int | bool | string | new | noExpr => exact absurd mem List.not_mem_nil

/-! ## Expressions -/

/-- **All types that are recorded in an expression are in the set**, if it holds those of the
variables and those that are reported as undefined. -/
theorem typeExpr_closed (proper : g.Proper) (closed : g.hierarchy.Closed P)
    (agrees : s.vars.Agrees Γ) (declared : Γ.DeclaredIn P) {e : Expr}
    (reported : ∀ t, ReportsUndefined (g.typeExpr s e).findings t → P t) :
    ∀ path node, (g.typeExpr s e).node.sub? path = some node → P node.type := by
  induction e using Expr.parts_induction generalizing s Γ with
  | step line form ih =>
    have agrees : s.deeper.vars.Agrees Γ := agrees
    by_cases deep : s.depth < g.maxDepth
    · rw [typeExpr_of_lt deep] at reported ⊢
      -- the parts are checked in the scope of their binders, whose types are in the set
      have inParts : ∀ part ∈ form.parts, ∀ path node,
          (g.partOutcome s.deeper part).node.sub? path = some node → P node.type := by
        intro part mem
        have opened : (Γ.under part.binder).DeclaredIn P :=
          TypeEnv.declaredIn_under declared fun name t bound =>
            (infer_binder_accounted agrees.consistent line mem bound).elim (closed.isType t)
              (reported t)
        exact ih part mem (agrees_under agrees part.binder) opened fun t inPart =>
          reported t (inPart.widen (infer_findings_part agrees.consistent line mem))
      intro path node recorded
      cases path with
      | nil =>
        rw [Typed.sub?, Option.some.injEq] at recorded
        rw [← recorded]
        refine (infer_rule proper agrees line form).closed proper.rooted proper.known closed
          declared ?_
        rw [List.forall_mem_map]
        intro part mem
        rw [partType, partOutcome, ← typeExpr_node_type]
        exact inParts part mem [] _ rfl
      | cons i path =>
        change (g.infer s.deeper line form).below[i]?.bind (fun part => part.sub? path) = some node
          at recorded
        rw [infer_below agrees.consistent, List.getElem?_map, Option.bind_map] at recorded
        obtain ⟨part, hpart, recorded⟩ := Option.bind_eq_some_iff.mp recorded
        exact inParts part (List.mem_of_getElem? hpart) path node recorded
    · intro path node recorded
      rw [typeExpr, if_pos (Nat.not_lt.mp deep)] at recorded
      cases path with
      | nil =>
        rw [Typed.sub?, Option.some.injEq] at recorded
        rw [← recorded]
        exact closed.basic Known.object (by decide)
      | cons i path => exact absurd recorded (by simp [cutOff, Typed.sub?, Typed.parts])

end Setting

/-! ## Variables of a feature -/

theorem TypeEnv.declaredIn_ofClass {c : ClassSignature} (self : P Known.selfType)
    (attributes : ∀ a ∈ attributesInScope h c, P a.type) : (TypeEnv.ofClass h c).DeclaredIn P := by
  intro name t bound
  rw [ofClass, withAttributes, Option.or_eq_some_iff] at bound
  rcases bound with bound | ⟨-, bound⟩
  · split at bound
    · rw [← Option.some.inj bound]
      exact self
    · exact absurd bound (by simp)
  · obtain ⟨a, found, rfl⟩ := Option.map_eq_some_iff.mp bound
    exact attributes a (List.mem_of_find?_eq_some found)

theorem TypeEnv.declaredIn_withFormals {formals : List Formal} (declared : Γ.DeclaredIn P)
    (all : ∀ f ∈ formals, f.name ≠ Known.self → P f.type) :
    (Γ.withFormals formals).DeclaredIn P := by
  intro name t bound
  rw [withFormals] at bound
  split at bound
  · exact declared name t bound
  · next notSelf =>
    rcases Option.or_eq_some_iff.mp bound with bound | ⟨-, bound⟩
    · obtain ⟨f, found, rfl⟩ := Option.map_eq_some_iff.mp bound
      have named := List.find?_some found
      rw [beq_iff_eq] at named
      exact all f (List.mem_of_find?_eq_some found) (named ▸ notSelf)
    · exact declared name t bound

theorem Class.mem_methods {c : Class} {m : Method} (mem : m ∈ c.methods) :
    Feature.method m ∈ c.features := by
  obtain ⟨f, hf, found⟩ := List.mem_filterMap.mp mem
  cases f with
  | attr a => exact absurd found (by simp)
  | method m' =>
    rw [Option.some.injEq] at found
    rw [← found]
    exact hf

theorem Class.mem_attributes {c : Class} {a : Attribute} (mem : a ∈ c.attributes) :
    Feature.attr a ∈ c.features := by
  obtain ⟨f, hf, found⟩ := List.mem_filterMap.mp mem
  cases f with
  | method m => exact absurd found (by simp)
  | attr a' =>
    rw [Option.some.injEq] at found
    rw [← found]
    exact hf

namespace Program

variable {p : Program} {c : Class}

theorem builtin_isDefined {t : Name} (basic : Hierarchy.builtin.isDefined t = true) :
    p.declared.isDefined t = true := by
  rw [Hierarchy.isDefined_iff_mem] at basic ⊢
  rw [declared, List.map_append]
  exact List.mem_append_left _ basic

/-- The signatures of the built-in classes speak of built-in classes. -/
theorem builtin_signatures : ∀ c ∈ Builtin.classes, ∀ m ∈ c.methods,
    (m.returnType = Known.selfType ∨ Hierarchy.builtin.isDefined m.returnType = true) ∧
      ∀ param ∈ m.params, Hierarchy.builtin.isDefined param.type = true := by
  decide

/-- Of the built-in classes only those that have no subclasses have attributes. -/
theorem builtin_attributes : ∀ c ∈ Builtin.classes, c.attributes ≠ [] →
    c.name ∈ [Known.int, Known.bool, Known.string] := by
  decide

/-- Every attribute in scope in a class of a program is declared in a class of the program. -/
theorem mem_attributesInScope (built : Hierarchy.build p = .ok h) (hc : c ∈ p.classes)
    {a : AttributeSignature} (mem : a ∈ attributesInScope h (ClassSignature.ofClass c)) :
    ∃ d ∈ p.classes, ∃ decl, Feature.attr decl ∈ d.features ∧ a.type = decl.type := by
  have own : ∀ d ∈ p.classes, a ∈ (ClassSignature.ofClass d).attributes →
      ∃ d ∈ p.classes, ∃ decl, Feature.attr decl ∈ d.features ∧ a.type = decl.type := by
    intro d hd ha
    obtain ⟨decl, hdecl, rfl⟩ := List.mem_map.mp ha
    exact ⟨d, hd, decl, Class.mem_attributes hdecl, rfl⟩
  obtain ⟨wf, rfl⟩ := Hierarchy.build_eq_ok_iff.mp built
  rcases List.mem_append.mp mem with mem | mem
  · obtain ⟨d, hd, ha⟩ := List.mem_flatMap.mp mem
    have hd := List.mem_of_mem_drop hd
    rcases Hierarchy.mem_declared (Hierarchy.mem_of_mem_ancestorsWithin _ _ hd) with
      basic | ⟨d', hd', rfl⟩
    · -- a class of the program is not below the built-in classes that have attributes
      have named := builtin_attributes d basic (List.ne_nil_of_mem ha)
      have same := Hierarchy.eq_of_below_basic wf.parents named
        (Hierarchy.below_of_mem_ancestorsWithin _ hd)
      have fresh := (not_builtin_of_namesFree wf.names hc).1
      rw [ofClass_name] at same
      rw [same, Hierarchy.isDefined_of_mem (h := Hierarchy.builtin) basic] at fresh
      exact absurd fresh (by simp)
    · exact own d' hd' ha
  · exact own c hc mem

end Program

end SelfTyped
