/-
SelfTyped.Proofs.Runs — a run class by class and feature by feature.

The checker comes back to the class scope after every feature, so the
outcome of a run is put together from outcomes for single features, each
checked in the class scope of its class (`Program.outcome`).  The main
statements say how: `typeIn_findings` for what is reported, `typeIn_nodes`
for what is recorded.
-/
import SelfTyped.Proofs.Exactness
import SelfTyped.Proofs.Reports

namespace SelfTyped

/-- The type that a run records for a node of a feature, if it does. -/
def Analysis.recordedType? (a : Analysis) (i j : Nat) (path : List Nat) : Option Name :=
  (a.node? i j path).map Typed.type

namespace Program

variable {p : Program} {h : Hierarchy} {m : Nat} {c : Class} {f : Feature} {a : Analysis}

/-- The outcome of checking a feature in the class scope. -/
def outcome (h : Hierarchy) (m : Nat) (c : Class) (f : Feature) : FeatureOutcome :=
  (setting h m c).typeFeature (classState h c) f

/-- What is found in a class: redefined attributes, and then what is found in the features. -/
def classFindings (h : Hierarchy) (m : Nat) (c : Class) : List Finding :=
  (Variables.ofClass h (ClassSignature.ofClass c)).2 ++
    c.features.flatMap fun f => (outcome h m c f).findings

theorem typeClass_eq (h : Hierarchy) (m : Nat) (c : Class) :
    typeClass h (MethodTable.build h).1 m c =
      (⟨c, c.features.map fun f => ⟨f, (outcome h m c f).node⟩⟩, classFindings h m c) := by
  have features := typeClass_features h m c
  have findings : (typeClass h (MethodTable.build h).1 m c).2 =
      (Variables.ofClass h (ClassSignature.ofClass c)).2 ++
        ((setting h m c).typeFeatures (classState h c) c.features).findings := rfl
  rw [Setting.typeFeatures_eq (classState_agrees h c)] at findings
  exact Prod.ext (congrArg (TypedClass.mk c) features) findings

theorem typeIn_classes (p : Program) (h : Hierarchy) (m : Nat) :
    (p.typeIn h m).classes =
      p.classes.map fun c => ⟨c, c.features.map fun f => ⟨f, (outcome h m c f).node⟩⟩ := by
  change (p.classes.map (typeClass h (MethodTable.build h).1 m)).map (·.1) = _
  rw [List.map_map]
  exact List.map_congr_left fun c _ => congrArg Prod.fst (typeClass_eq h m c)

/-- Redeclared methods are reported first, then class by class what is found there. -/
theorem typeIn_findings (p : Program) (h : Hierarchy) (m : Nat) :
    (p.typeIn h m).findings = (MethodTable.build h).2 ++ p.classes.flatMap (classFindings h m) := by
  change (MethodTable.build h).2 ++
    (p.classes.map (typeClass h (MethodTable.build h).1 m)).flatMap (·.2) = _
  rw [List.flatMap_map]
  congr 2
  funext c
  rw [typeClass_eq]

/-- A node is recorded where the outcome for its feature has it. -/
theorem typeIn_nodes (p : Program) (h : Hierarchy) (m i j : Nat) (path : List Nat) :
    (p.typeIn h m).node? i j path =
      p.classes[i]?.bind fun c => c.features[j]?.bind fun f =>
        (outcome h m c f).node.sub? path := by
  rw [Analysis.node?, typeIn_classes, List.getElem?_map]
  cases p.classes[i]? with
  | none => rfl
  | some c =>
    simp only [Option.map_some, Option.bind_some, List.getElem?_map]
    cases c.features[j]? <;> rfl

end Program

end SelfTyped
