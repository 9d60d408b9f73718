/-
SelfTyped.Proofs.Modularity — an initializer or body matters to its own
feature only.

`Program.withRoot` replaces the initializer or body of one feature.  The
hierarchy is built from signatures, which have no initializers and bodies,
so it stays (`build_congr`), and with it the setting and the class scope in
which every feature is checked.  As every feature is checked in the scope
of its class, whatever came before it, the rest of the run stays as it is:
`edit_local`.
-/
import SelfTyped.Proofs.Runs

namespace SelfTyped

/-! ## Edits -/

namespace Feature

/-- The feature with another initializer or body. -/
def withRoot (f : Feature) (root : Expr) : Feature :=
  match f with
  | .attr a => .attr { a with init := root }
  | .method m => .method { m with body := root }

/-- What a feature adds to the attributes of its class. -/
def attribute? : Feature → Option AttributeSignature
  | .attr a => some (.ofAttribute a)
  | .method _ => none

/-- What a feature adds to the methods of its class. -/
def method? (owner : Name) : Feature → Option MethodSignature
  | .attr _ => none
  | .method m => some (.ofMethod owner m)

theorem attribute?_withRoot (f : Feature) (root : Expr) :
    (f.withRoot root).attribute? = f.attribute? := by
  cases f <;> rfl

theorem method?_withRoot (owner : Name) (f : Feature) (root : Expr) :
    (f.withRoot root).method? owner = f.method? owner := by
  cases f <;> rfl

end Feature

/-- The class in which feature `j` has another initializer or body. -/
def Class.withRoot (c : Class) (j : Nat) (root : Expr) : Class :=
  { c with features := c.features.modify j fun f => f.withRoot root }

/-- The program in which feature `j` of class `i` has another initializer or body. -/
def Program.withRoot (p : Program) (i j : Nat) (root : Expr) : Program :=
  ⟨p.classes.modify i fun c => c.withRoot j root⟩

/-! ## Lists with one item changed -/

section Lists

variable {α β : Type} {l : List α} {i : Nat} {a : α} {f : α → α}

/-- A list around one of its items, which may be replaced. -/
theorem flatMap_split (found : l[i]? = some a) (g : α → List β) :
    ∃ before after, l.flatMap g = before ++ g a ++ after ∧
      ∀ f : α → α, (l.modify i f).flatMap g = before ++ g (f a) ++ after := by
  obtain ⟨lt, rfl⟩ := List.getElem?_eq_some_iff.mp found
  refine ⟨(l.take i).flatMap g, (l.drop (i + 1)).flatMap g, ?_, fun f => ?_⟩
  · conv_lhs => rw [← List.take_append_drop i l, ← List.getElem_cons_drop lt]
    rw [List.flatMap_append, List.flatMap_cons, List.append_assoc]
  · rw [List.modify_eq_take_cons_drop lt]
    simp

theorem map_modify_of_eq {g : α → β} (same : ∀ a, g (f a) = g a) (l : List α) (i : Nat) :
    (l.modify i f).map g = l.map g := by
  refine List.ext_getElem? fun k => ?_
  rw [List.getElem?_map, List.getElem?_map, List.getElem?_modify]
  cases l[k]? with
  | none => rfl
  | some a =>
    simp only [Option.map_eq_map, Option.map_some]
    split
    · rw [same]
    · rfl

theorem filterMap_modify_of_eq {g : α → Option β} (same : ∀ a, g (f a) = g a) (l : List α)
    (i : Nat) : (l.modify i f).filterMap g = l.filterMap g := by
  have flat : ∀ l : List α, l.filterMap g = (l.map g).filterMap id := by
    intro l
    rw [List.filterMap_map]
    rfl
  rw [flat, flat, map_modify_of_eq same]

end Lists

/-! ## Signatures -/

theorem ofClass_attributes (c : Class) :
    (ClassSignature.ofClass c).attributes = c.features.filterMap Feature.attribute? := by
  change (c.features.filterMap _).map _ = _
  rw [List.map_filterMap]
  refine List.filterMap_congr fun f _ => ?_
  cases f <;> rfl

theorem ofClass_methods (c : Class) :
    (ClassSignature.ofClass c).methods = c.features.filterMap (Feature.method? c.name) := by
  change (c.features.filterMap _).map _ = _
  rw [List.map_filterMap]
  refine List.filterMap_congr fun f _ => ?_
  cases f <;> rfl

/-- A signature has no initializers and bodies. -/
theorem ofClass_withRoot (c : Class) (j : Nat) (root : Expr) :
    ClassSignature.ofClass (c.withRoot j root) = ClassSignature.ofClass c := by
  have attributes : (ClassSignature.ofClass (c.withRoot j root)).attributes =
      (ClassSignature.ofClass c).attributes := by
    rw [ofClass_attributes, ofClass_attributes]
    exact filterMap_modify_of_eq (fun f => f.attribute?_withRoot root) _ _
  have methods : (ClassSignature.ofClass (c.withRoot j root)).methods =
      (ClassSignature.ofClass c).methods := by
    rw [ofClass_methods, ofClass_methods]
    exact filterMap_modify_of_eq (fun f => f.method?_withRoot c.name root) _ _
  exact ClassSignature.mk.injEq .. |>.mpr ⟨rfl, rfl, rfl, rfl, attributes, methods, rfl⟩

namespace Hierarchy

/-- Registration looks at signatures only. -/
theorem register_congr {classes classes' : List Class}
    (same : classes.map ClassSignature.ofClass = classes'.map ClassSignature.ofClass)
    (h : Hierarchy) : h.register classes = h.register classes' := by
  induction classes generalizing classes' h with
  | nil =>
    rw [List.map_nil, eq_comm, List.map_eq_nil_iff] at same
    rw [same]
  | cons c rest ih =>
    cases classes' with
    | nil => simp at same
    | cons c' rest' =>
      rw [List.map_cons, List.map_cons, List.cons.injEq] at same
      obtain ⟨first, others⟩ := same
      have name : c.name = c'.name := congrArg ClassSignature.name first
      rw [register, register, first, name]
      simp only [ih others]

theorem checkClasses_congr {classes classes' : List Class}
    (same : classes.map ClassSignature.ofClass = classes'.map ClassSignature.ofClass)
    (h : Hierarchy) : h.checkClasses classes = h.checkClasses classes' := by
  induction classes generalizing classes' with
  | nil =>
    rw [List.map_nil, eq_comm, List.map_eq_nil_iff] at same
    rw [same]
  | cons c rest ih =>
    cases classes' with
    | nil => simp at same
    | cons c' rest' =>
      rw [List.map_cons, List.map_cons, List.cons.injEq] at same
      obtain ⟨first, others⟩ := same
      have name : c.name = c'.name := congrArg ClassSignature.name first
      rw [checkClasses, checkClasses, first, name, ih others]

/-- **The hierarchy is built from signatures**, and so is any violation. -/
theorem build_congr {p p' : Program}
    (same : p.classes.map ClassSignature.ofClass = p'.classes.map ClassSignature.ofClass) :
    build p = build p' := by
  rw [build, build, register_congr same]
  simp only [checkClasses_congr same]

end Hierarchy

/-! ## Runs -/

namespace Program

variable {p : Program} {h : Hierarchy} {m i j : Nat} {c : Class} {f : Feature} {root : Expr}

/-- What a run finds while it checks a feature of the class `c` after the features in `before`. -/
def reportedAfter (h : Hierarchy) (m : Nat) (c : Class) (before : List Feature) (f : Feature) :
    List Finding :=
  let s := ((setting h m c).typeFeatures (classState h c) before).state
  ((setting h m c).typeFeature s f).findings

/-- The features before leave no trace. -/
theorem reportedAfter_eq (h : Hierarchy) (m : Nat) (c : Class) (before : List Feature)
    (f : Feature) : reportedAfter h m c before f = (outcome h m c f).findings := by
  rw [reportedAfter, Setting.typeFeatures_eq (classState_agrees h c)]
  rfl

theorem outcome_withRoot (h : Hierarchy) (m : Nat) (c : Class) (j : Nat) (root : Expr) :
    outcome h m (c.withRoot j root) = outcome h m c := by
  unfold outcome setting classState
  rw [ofClass_withRoot]

theorem build_withRoot (p : Program) (i j : Nat) (root : Expr) :
    Hierarchy.build (p.withRoot i j root) = Hierarchy.build p :=
  Hierarchy.build_congr (map_modify_of_eq (fun c => ofClass_withRoot c j root) _ _)

/-- What is found in a class around one of its features. -/
theorem classFindings_split (h : Hierarchy) (m : Nat) (hf : c.features[j]? = some f) :
    ∃ before after, classFindings h m c = before ++ (outcome h m c f).findings ++ after ∧
      ∀ root, classFindings h m (c.withRoot j root) =
        before ++ (outcome h m c (f.withRoot root)).findings ++ after := by
  obtain ⟨before, after, here, edited⟩ := flatMap_split hf fun f => (outcome h m c f).findings
  refine ⟨(Variables.ofClass h (ClassSignature.ofClass c)).2 ++ before, after, ?_, fun root => ?_⟩
  · simp only [classFindings, here, List.append_assoc]
  · have features : (c.withRoot j root).features.flatMap (fun f => (outcome h m c f).findings) =
        before ++ (outcome h m c (f.withRoot root)).findings ++ after :=
      edited fun f => f.withRoot root
    simp only [classFindings, ofClass_withRoot, outcome_withRoot, features, List.append_assoc]

/-- What a run finds around one feature. -/
theorem typeIn_findings_split (h : Hierarchy) (m : Nat) (hc : p.classes[i]? = some c)
    (hf : c.features[j]? = some f) :
    ∃ before after, (p.typeIn h m).findings = before ++ (outcome h m c f).findings ++ after ∧
      ∀ root, ((p.withRoot i j root).typeIn h m).findings =
        before ++ (outcome h m c (f.withRoot root)).findings ++ after := by
  obtain ⟨inClass, restOfClass, here, edited⟩ := classFindings_split h m hf
  obtain ⟨before, after, hereAll, editedAll⟩ := flatMap_split hc (classFindings h m)
  refine ⟨(MethodTable.build h).2 ++ before ++ inClass, restOfClass ++ after, ?_, fun root => ?_⟩
  · simp only [typeIn_findings, hereAll, here, List.append_assoc]
  · have classes : (p.withRoot i j root).classes.flatMap (classFindings h m) =
        before ++ classFindings h m (c.withRoot j root) ++ after :=
      editedAll fun c => c.withRoot j root
    simp only [typeIn_findings, classes, edited, List.append_assoc]

/-- Outside of the feature the same types are recorded. -/
theorem recordedType?_withRoot (p : Program) (h : Hierarchy) (m : Nat) {i j k l : Nat}
    (root : Expr) (path : List Nat) (elsewhere : (k, l) ≠ (i, j)) :
    ((p.withRoot i j root).typeIn h m).recordedType? k l path =
      (p.typeIn h m).recordedType? k l path := by
  have classes : (p.withRoot i j root).classes[k]? =
      (p.classes[k]?).map fun c => if i = k then c.withRoot j root else c :=
    List.getElem?_modify _ _ _ _
  rw [Analysis.recordedType?, Analysis.recordedType?, typeIn_nodes, typeIn_nodes, classes]
  cases p.classes[k]? with
  | none => rfl
  | some c =>
    simp only [Option.map_some, Option.bind_some]
    by_cases here : i = k
    · have other : j ≠ l := fun same => elsewhere (by rw [here, same])
      have features : (c.withRoot j root).features[l]? = c.features[l]? := by
        simp [Class.withRoot, other]
      simp only [here, if_true, features, outcome_withRoot]
    · simp only [here, if_false]

/-! ## The main statement -/

/-- **Modularity.**  Another initializer or body for one feature changes nothing about the
hierarchy.  Of what a run finds only the stretch changes that is found while this feature is
checked, and at every expression outside of the feature the same type, or none, is recorded. -/
theorem edit_local (hc : p.classes[i]? = some c) (hf : c.features[j]? = some f) (root : Expr)
    (m : Nat) :
    Hierarchy.build (p.withRoot i j root) = Hierarchy.build p ∧
      ∀ h, Hierarchy.build p = .ok h →
        ∃ a a', p.analyse m = .ok a ∧ (p.withRoot i j root).analyse m = .ok a' ∧
          (∃ before after,
            a.findings = before ++ reportedAfter h m c (c.features.take j) f ++ after ∧
            a'.findings =
              before ++ reportedAfter h m (c.withRoot j root)
                ((c.withRoot j root).features.take j) (f.withRoot root) ++ after) ∧
          ∀ k l path, (k, l) ≠ (i, j) →
            a'.recordedType? k l path = a.recordedType? k l path := by
  refine ⟨build_withRoot p i j root, fun h built => ?_⟩
  have built' : Hierarchy.build (p.withRoot i j root) = .ok h := by
    rw [build_withRoot, built]
  obtain ⟨before, after, here, edited⟩ := typeIn_findings_split h m hc hf
  refine ⟨_, _, analyse_of_build built, analyse_of_build built', ⟨before, after, ?_, ?_⟩, ?_⟩
  · rw [reportedAfter_eq]
    exact here
  · rw [reportedAfter_eq, outcome_withRoot]
    exact edited root
  · intro k l path elsewhere
    exact recordedType?_withRoot p h m root path elsewhere

/-- A body that binds the attribute `value` anew, calls itself and has a wrong type. -/
def strayBody : Expr :=
  ⟨7, .letIn "value" "Bool" ⟨7, .noExpr⟩ ⟨8, .assign "value" ⟨8, .object "self"⟩⟩⟩

/-- With `strayBody` in place of its body the method `main` is reported, the attribute before it
keeps the type of its initializer. -/
theorem edit_local_stray_body :
    (Program.mk [classWithLet]).classes[0]? = some classWithLet ∧
      classWithLet.features[1]? = some methodWithLet ∧
      ∃ a a', (Program.mk [classWithLet]).analyse 1000 = .ok a ∧
        ((Program.mk [classWithLet]).withRoot 0 1 strayBody).analyse 1000 = .ok a' ∧
        a.findings = [] ∧ a'.findings ≠ [] ∧
        a.recordedType? 0 0 [] = some "Int" ∧ a'.recordedType? 0 0 [] = some "Int" := by
  have hc : (Program.mk [classWithLet]).classes[0]? = some classWithLet := rfl
  have hf : classWithLet.features[1]? = some methodWithLet := rfl
  obtain ⟨a, a', analysed, analysed', -, elsewhere⟩ :=
    (edit_local hc hf strayBody 1000).2 _ rfl
  have silent : a.findings = [] := by
    cases analysed
    rfl
  have reported : a'.findings ≠ [] := by
    cases analysed'
    decide
  have recorded : a.recordedType? 0 0 [] = some "Int" := by
    cases analysed
    rfl
  refine ⟨hc, hf, a, a', analysed, analysed', silent, reported, recorded, ?_⟩
  rw [elsewhere 0 0 [] (by decide), recorded]

end Program

end SelfTyped
