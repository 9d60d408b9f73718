/-
SelfTyped.Proofs.ReportedTypes — no unknown type goes unreported.

A type that does not exist conforms to every type, and a call on it is not
looked at, because it was reported where it came up.  Here this is shown of
every run, whatever it reports: a type that is recorded exists, or it is
the type of a missing expression, or the run reports it as undefined where
an attribute, a parameter, a variable or the result of a method is declared
(`unknown_types_reported`).

By `typeExpr_closed` this comes down to the declarations.  Each of them is
checked in some feature of the program, which need not be a feature of the
class in which the type is recorded, and what is found there is part of
what the run finds.
-/
import SelfTyped.Proofs.Runs
import SelfTyped.Proofs.TypeOrigins

namespace SelfTyped

namespace Setting

variable {g : Setting} {s : CheckState}

/-! ## Features -/

theorem typeAttribute_accounted (a : Attribute) :
    Accounted g.hierarchy (g.typeFeature s (.attr a)).findings a.type := by
  have declared : Accounted g.hierarchy (g.require (g.isDeclarable a.type) a.line
      (.undefinedAttributeType a.name a.type)) a.type := accounted_declarable rfl
  exact declared.widen (List.infix_append_of_infix_right List.infix_append_left)

theorem typeMethod_accounted (m : Method) :
    Accounted g.hierarchy (g.typeFeature s (.method m)).findings m.returnType := by
  have declared : Accounted g.hierarchy (g.require (g.isDeclarable m.returnType) m.line
      (.undefinedReturnType m.name m.returnType)) m.returnType := accounted_declarable rfl
  exact declared.widen (List.infix_append_of_infix_right List.infix_append_left)

theorem checkFormalType_accounted (f : Formal) :
    Accounted g.hierarchy (g.checkFormalType f) f.type := by
  by_cases isSelfType : f.type = Known.selfType
  · exact Or.inl (Or.inl isSelfType)
  · rw [checkFormalType, if_neg isSelfType]
    exact accounted_defined rfl

/-- The type of a parameter is checked, and nothing that was found before is lost. -/
theorem bindFormal_findings (state : CheckState × List Finding) (f : Formal) :
    state.2 <+: (g.bindFormal state f).2 ∧
      (f.name ≠ Known.self → g.checkFormalType f <:+: (g.bindFormal state f).2) := by
  rw [bindFormal]
  split
  · next isSelf => exact ⟨List.prefix_append _ _, fun notSelf => absurd isSelf notSelf⟩
  · split
    · exact ⟨List.prefix_append _ _,
        fun _ => List.infix_append_of_infix_right List.infix_append_left⟩
    · exact ⟨List.prefix_append _ _, fun _ => List.infix_append_of_infix_right List.infix_rfl⟩

theorem bindFormals_findings (state : CheckState × List Finding) (formals : List Formal) :
    state.2 <+: (formals.foldl g.bindFormal state).2 ∧
      ∀ f ∈ formals, f.name ≠ Known.self →
        g.checkFormalType f <:+: (formals.foldl g.bindFormal state).2 := by
  induction formals generalizing state with
  | nil => exact ⟨List.prefix_rfl, fun f mem => absurd mem List.not_mem_nil⟩
  | cons first rest ih =>
    obtain ⟨kept, checked⟩ := bindFormal_findings (g := g) state first
    obtain ⟨kept', checked'⟩ := ih (g.bindFormal state first)
    refine ⟨kept.trans kept', fun f mem notSelf => ?_⟩
    rcases List.mem_cons.mp mem with rfl | mem
    · exact (checked notSelf).trans kept'.isInfix
    · exact checked' f mem notSelf

theorem typeFormal_accounted {m : Method} {f : Formal} (mem : f ∈ m.formals)
    (notSelf : f.name ≠ Known.self) :
    Accounted g.hierarchy (g.typeFeature s (.method m)).findings f.type := by
  have checked := (bindFormals_findings (g := g) (s.enter, []) m.formals).2 f mem notSelf
  exact ((checkFormalType_accounted f).widen checked).widen List.infix_append_left

end Setting

namespace Program

variable {p : Program} {h : Hierarchy} {m i j : Nat} {c : Class} {f : Feature} {t : Name}

/-! ## Runs -/

/-- The type of a missing expression, or a type that exists or is reported. -/
def Explained (h : Hierarchy) (findings : List Finding) (t : Name) : Prop :=
  t = Known.noType ∨ Accounted h findings t

theorem accounted_of_feature (hc : c ∈ p.classes) (hf : f ∈ c.features)
    (accounted : Accounted (setting h m c).hierarchy
      ((setting h m c).typeFeature (classState h c) f).findings t) :
    Accounted h (p.typeIn h m).findings t :=
  accounted.widen (typeIn_findings_part hc hf)

/-- No rule leads out of the types that a run explains. -/
theorem explained_closed (built : Hierarchy.build p = .ok h) (m : Nat) :
    h.Closed (Explained h (p.typeIn h m).findings) where
  isType _ exist := Or.inr (Or.inl exist)
  basic t builtin := by
    obtain ⟨-, rfl⟩ := Hierarchy.build_eq_ok_iff.mp built
    exact Or.inr (Or.inl (Or.inr (builtin_isDefined builtin)))
  result c hc method hm := by
    have declared : h = p.declared := (Hierarchy.build_eq_ok_iff.mp built).2
    rw [declared] at hc
    rcases Hierarchy.mem_declared hc with basic | ⟨d, hd, rfl⟩
    · have exist := (builtin_signatures c basic method hm).1.imp id (builtin_isDefined (p := p))
      rw [← declared] at exist
      exact Or.inr (Or.inl exist)
    · obtain ⟨decl, mem, rfl⟩ := List.mem_map.mp hm
      exact Or.inr (accounted_of_feature hd (Class.mem_methods mem)
        (Setting.typeMethod_accounted decl))
  missing := Or.inl rfl

/-- The variables that a feature sees have types that the run explains. -/
theorem declaredIn_ofFeature (built : Hierarchy.build p = .ok h) (m : Nat) (hc : c ∈ p.classes)
    (hf : f ∈ c.features) :
    (TypeEnv.ofFeature h (ClassSignature.ofClass c) f).DeclaredIn
      (Explained h (p.typeIn h m).findings) := by
  have inClass : (TypeEnv.ofClass h (ClassSignature.ofClass c)).DeclaredIn
      (Explained h (p.typeIn h m).findings) := by
    refine TypeEnv.declaredIn_ofClass (Or.inr (Or.inl (Or.inl rfl))) fun a mem => ?_
    obtain ⟨d, hd, decl, hdecl, same⟩ := mem_attributesInScope built hc mem
    rw [same]
    exact Or.inr (accounted_of_feature hd hdecl (Setting.typeAttribute_accounted decl))
  cases f with
  | attr a => exact inClass
  | method method =>
    refine TypeEnv.declaredIn_withFormals inClass fun formal mem notSelf => ?_
    exact Or.inr (accounted_of_feature hc hf (Setting.typeFormal_accounted mem notSelf))

/-- Every type that a run records is explained. -/
theorem recordedType?_explained (built : Hierarchy.build p = .ok h) {path : List Nat}
    (recorded : (p.typeIn h m).recordedType? i j path = some t) :
    Explained h (p.typeIn h m).findings t := by
  obtain ⟨node, found, rfl⟩ := Option.map_eq_some_iff.mp recorded
  rw [typeIn_nodes] at found
  obtain ⟨c, hc, found⟩ := Option.bind_eq_some_iff.mp found
  obtain ⟨f, hf, found⟩ := Option.bind_eq_some_iff.mp found
  have hc := List.mem_of_getElem? hc
  have hf := List.mem_of_getElem? hf
  rw [outcome, Setting.typeFeature_node] at found
  refine Setting.typeExpr_closed (setting_proper built hc) (explained_closed built m)
    (Setting.featureState_agrees (classState_agrees h c) f) (declaredIn_ofFeature built m hc hf)
    (fun t reported => ?_) path node found
  exact Or.inr (Or.inr (reported.widen
    ((Setting.typeFeature_findings_part _ _ f).trans (typeIn_findings_part hc hf))))

/-! ## Messages -/

/-- A message about a type that is undefined names the type. -/
theorem undefinedType?_message {error : TypeError} (undefined : error.undefinedType? = some t) :
    ∃ before after, error.message = before ++ t ++ after := by
  have assoc : ∀ before t x y z : String,
      before ++ t ++ x ++ y ++ z = before ++ t ++ (x ++ y ++ z) := by
    intro before t x y z
    simp only [String.append_assoc]
  cases error with
  | undefinedAttributeType name type =>
    obtain rfl := Option.some.inj undefined
    exact ⟨_, _, assoc "Class " type " of attribute " name " is undefined."⟩
  | undefinedFormalType name type =>
    obtain rfl := Option.some.inj undefined
    exact ⟨_, _, assoc "Class " type " of formal parameter " name " is undefined."⟩
  | undefinedLetType name type =>
    obtain rfl := Option.some.inj undefined
    exact ⟨_, _, assoc "Class " type " of let-bound identifier " name " is undefined."⟩
  | undefinedCaseBranchType type =>
    obtain rfl := Option.some.inj undefined
    exact ⟨"Class ", " of case branch is undefined.", rfl⟩
  | undefinedReturnType method type =>
    obtain rfl := Option.some.inj undefined
    exact ⟨_, _, assoc "Undefined return type " type " in method " method "."⟩
  | _ => exact absurd undefined (by simp [TypeError.undefinedType?])

/-- A check that starts with nothing reported reports that a type is undefined. -/
def ReportsType (p : Program) (m : Nat) (t : Name) : Prop :=
  ∃ (f : Finding) (before after : String), f.diagnostic ∈ (p.check m Sink.empty).1.messages ∧
    f.error.undefinedType? = some t ∧ f.diagnostic.message = before ++ t ++ after

theorem reportsType_of_reportsUndefined (built : Hierarchy.build p = .ok h)
    (reported : ReportsUndefined (p.typeIn h m).findings t) : p.ReportsType m t := by
  obtain ⟨f, mem, undefined⟩ := reported
  obtain ⟨before, after, message⟩ := undefinedType?_message undefined
  refine ⟨f, before, after, ?_, undefined, message⟩
  rw [check_messages built]
  exact List.mem_append_right _ (List.mem_map_of_mem mem)

/-- The raw slot of a basic value is no class, unless the program declares one of its name. -/
theorem exists_of_isDefined_rawSlot (built : Hierarchy.build p = .ok h)
    (known : h.isDefined Known.rawSlot = true) : ∃ c ∈ p.classes, c.name = Known.rawSlot := by
  obtain ⟨-, rfl⟩ := Hierarchy.build_eq_ok_iff.mp built
  obtain ⟨c, hc, named⟩ := List.mem_map.mp (Hierarchy.isDefined_iff_mem.mp known)
  rcases Hierarchy.mem_declared hc with basic | ⟨d, hd, rfl⟩
  · have apart : ∀ c ∈ Builtin.classes, c.name ≠ Known.rawSlot := by decide
    exact absurd named (apart c basic)
  · exact ⟨d, hd, named⟩

/-! ## The main statement -/

/-- **No unknown type goes unreported.**  Of a program that has a hierarchy every recorded type is
that of a class, `SELF_TYPE`, the type of a missing expression, or one that is reported as undefined
by name.  The type of a raw slot is recorded only if a class of the program has its name, or if it
is reported.  Where nothing is reported, all recorded types are of the first three kinds. -/
theorem unknown_types_reported (built : Hierarchy.build p = .ok h) (m : Nat) :
    ∃ a, p.analyse m = .ok a ∧
      (∀ i j path t, a.recordedType? i j path = some t →
        h.isDefined t = true ∨ t = Known.selfType ∨ t = Known.noType ∨ p.ReportsType m t) ∧
      (∀ i j path, a.recordedType? i j path = some Known.rawSlot →
        (∃ c ∈ p.classes, c.name = Known.rawSlot) ∨ p.ReportsType m Known.rawSlot) ∧
      ((p.check m Sink.empty).1.messages = [] → ∀ i j path t, a.recordedType? i j path = some t →
        h.isDefined t = true ∨ t = Known.selfType ∨ t = Known.noType) := by
  have explained : ∀ i j path t, (p.typeIn h m).recordedType? i j path = some t →
      h.isDefined t = true ∨ t = Known.selfType ∨ t = Known.noType ∨ p.ReportsType m t := by
    intro i j path t recorded
    rcases recordedType?_explained built recorded with missing | (isSelfType | known) | reported
    · exact Or.inr (Or.inr (Or.inl missing))
    · exact Or.inr (Or.inl isSelfType)
    · exact Or.inl known
    · exact Or.inr (Or.inr (Or.inr (reportsType_of_reportsUndefined built reported)))
  refine ⟨_, analyse_of_build built, explained, ?_, ?_⟩
  · intro i j path recorded
    rcases explained i j path _ recorded with known | isSelfType | missing | reported
    · exact Or.inl (exists_of_isDefined_rawSlot built known)
    · exact absurd isSelfType (by decide)
    · exact absurd missing (by decide)
    · exact Or.inr reported
  · intro silent i j path t recorded
    rcases explained i j path t recorded with known | isSelfType | missing | reported
    · exact Or.inl known
    · exact Or.inr (Or.inl isSelfType)
    · exact Or.inr (Or.inr missing)
    · obtain ⟨f, -, -, mem, -⟩ := reported
      rw [silent] at mem
      exact absurd mem List.not_mem_nil

/-- A class that reads an inherited attribute. -/
def readsSlot : Class :=
  ⟨1, "Main", "Base", "reported.cl", [.method ⟨2, "main", [], "Object", ⟨2, .object "slot"⟩⟩]⟩

/-- A class with an attribute whose type does not exist. -/
def declaresSlot : Class :=
  ⟨4, "Base", "Object", "reported.cl", [.attr ⟨5, "slot", "Ghost", ⟨5, .noExpr⟩⟩]⟩

/-- The type of an inherited attribute is recorded though it does not exist, and it is reported in
the class that declares the attribute. -/
theorem unknown_types_reported_inherited :
    Hierarchy.build ⟨[readsSlot, declaresSlot]⟩ = .ok (declared ⟨[readsSlot, declaresSlot]⟩) ∧
      (∃ a, analyse ⟨[readsSlot, declaresSlot]⟩ 1000 = .ok a ∧
        a.recordedType? 0 0 [] = some "Ghost") ∧
      (declared ⟨[readsSlot, declaresSlot]⟩).isDefined "Ghost" = false ∧
      ReportsType ⟨[readsSlot, declaresSlot]⟩ 1000 "Ghost" := by
  have built : Hierarchy.build ⟨[readsSlot, declaresSlot]⟩ =
      .ok (declared ⟨[readsSlot, declaresSlot]⟩) := rfl
  have unknown : (declared ⟨[readsSlot, declaresSlot]⟩).isDefined "Ghost" = false := by decide
  obtain ⟨a, analysed, explained, -⟩ := unknown_types_reported built 1000
  have recorded : a.recordedType? 0 0 [] = some "Ghost" := by
    cases analysed
    rfl
  refine ⟨built, ⟨a, analysed, recorded⟩, unknown, ?_⟩
  rcases explained 0 0 [] _ recorded with known | isSelfType | missing | reported
  · exact absurd (unknown.symm.trans known) Bool.false_ne_true
  · exact absurd isSelfType (by decide)
  · exact absurd missing (by decide)
  · exact reported

end Program

end SelfTyped
