/-
SelfTyped.Proofs.ClassOrder — the order of class declarations does not
matter.

Two hierarchies of the same size that find the same classes answer every
question alike (`Alike`): whether a class is there, what its ancestors
are, conformance and joins.  The order of declaration shows in neither
(`alike_of_perm`), nor in what a program has to satisfy to have a
hierarchy (`WellFormed.perm`).  So a class is checked by the same rules in
the same scope wherever it is declared, and what is recorded and found in
it is the same (`typeClass_alike`).

What the order does show in is the order in which classes are reported on:
`class_order_irrelevant`.
-/
import SelfTyped.Proofs.Acceptance
import SelfTyped.Proofs.MethodTables
import SelfTyped.Proofs.Runs
import SelfTyped.Proofs.SameRules

namespace SelfTyped

/-! ## Hierarchies -/

namespace Hierarchy

variable {h h' : Hierarchy}

/-- Two hierarchies of the same size find the same classes. -/
structure Alike (h h' : Hierarchy) : Prop where
  find : ∀ a, h'.find? a = h.find? a
  size : h'.classes.length = h.classes.length

/-- Where names are distinct a class is found wherever it is declared. -/
theorem alike_of_perm (distinct : (h.classes.map ClassSignature.name).Nodup)
    (perm : h'.classes.Perm h.classes) : h.Alike h' where
  size := perm.length_eq
  find a := by
    have distinct' : (h'.classes.map ClassSignature.name).Nodup :=
      (perm.map ClassSignature.name).nodup_iff.mpr distinct
    cases found : h.find? a with
    | some c =>
      obtain ⟨hc, rfl⟩ := find?_mem found
      exact find?_name distinct' (perm.mem_iff.mpr hc)
    | none =>
      cases found' : h'.find? a with
      | none => rfl
      | some c =>
        obtain ⟨hc, rfl⟩ := find?_mem found'
        rw [find?_name distinct (perm.mem_iff.mp hc)] at found
        exact absurd found (by simp)

namespace Alike

variable (alike : h.Alike h')

include alike

theorem isDefined (a : Name) : h'.isDefined a = h.isDefined a := by
  unfold Hierarchy.isDefined
  rw [alike.find]

theorem ancestorsWithin (steps : Nat) (start : Option Name) :
    h'.ancestorsWithin steps start = h.ancestorsWithin steps start := by
  induction steps generalizing start with
  | zero => rfl
  | succ steps ih =>
    match start with
    | none => rfl
    | some a => simp only [Hierarchy.ancestorsWithin, alike.find, ih]

theorem ancestors (a : Name) : h'.ancestors a = h.ancestors a := by
  unfold Hierarchy.ancestors
  rw [alike.size, alike.ancestorsWithin]

theorem isSubclass (current a b : Name) : h'.isSubclass current a b = h.isSubclass current a b := by
  simp only [Hierarchy.isSubclass, alike.ancestors]

theorem join (current a b : Name) : h'.join current a b = h.join current a b := by
  simp only [Hierarchy.join, alike.ancestors, alike.isSubclass]

theorem classScope (c : ClassSignature) : Variables.ofClass h' c = Variables.ofClass h c := by
  simp only [Variables.ofClass, alike.ancestors]

end Alike

end Hierarchy

/-! ## Well-formed programs -/

theorem namesFree_iff {classes : List Class} :
    NamesFree classes ↔ (classes.map Class.name).Nodup ∧
      ∀ c ∈ classes, Hierarchy.builtin.isDefined c.name = false ∧ c.name ≠ Known.selfType := by
  constructor
  · intro free
    refine ⟨?_, fun c hc => not_builtin_of_namesFree free hc⟩
    have distinct := distinct_of_namesFree free
    rw [declared_names] at distinct
    exact distinct.of_append_right
  · rintro ⟨distinct, fresh⟩ before c after rfl
    have other := fresh c (by simp)
    rintro (builtin | selfType | earlier)
    · simp [builtin] at other
    · exact other.2 selfType
    · rw [List.map_append, List.map_cons, List.nodup_append] at distinct
      exact distinct.2.2 c.name earlier c.name List.mem_cons_self rfl

namespace Program

variable {p p' : Program} {h h' : Hierarchy} {m : Nat} {c : Class}

theorem declared_perm (perm : p'.classes.Perm p.classes) :
    p'.declared.classes.Perm p.declared.classes :=
  (perm.map ClassSignature.ofClass).append_left Builtin.classes

theorem extends_perm (perm : p'.classes.Perm p.classes) :
    p'.declared.Extends ≤ p.declared.Extends := by
  rintro a b ⟨c, hc, name, parent⟩
  exact ⟨c, (declared_perm perm).mem_iff.mp hc, name, parent⟩

/-- Nothing that a program has to satisfy depends on the order of its classes. -/
theorem WellFormed.perm (wf : p.WellFormed) (perm : p'.classes.Perm p.classes) :
    p'.WellFormed where
  names := by
    obtain ⟨distinct, fresh⟩ := namesFree_iff.mp wf.names
    refine namesFree_iff.mpr ⟨?_, fun c hc => fresh c (perm.mem_iff.mp hc)⟩
    exact (perm.map Class.name).nodup_iff.mpr distinct
  main := by
    obtain ⟨c, hc, name⟩ := wf.main
    exact ⟨c, perm.mem_iff.mpr hc, name⟩
  parents := by
    intro c hc
    have alike := Hierarchy.alike_of_perm (Hierarchy.declared_distinct wf.names)
      (declared_perm perm)
    rw [ParentFits, alike.isDefined]
    exact wf.parents c (perm.mem_iff.mp hc)
  acyclic := by
    intro c hc cyclic
    have cyclic := Relation.TransGen.mono (extends_perm perm) c.name c.name cyclic
    exact wf.acyclic c (perm.mem_iff.mp hc) cyclic

theorem build_perm (perm : p'.classes.Perm p.classes) (built : Hierarchy.build p = .ok h) :
    Hierarchy.build p' = .ok p'.declared ∧ h.Alike p'.declared := by
  obtain ⟨wf, rfl⟩ := Hierarchy.build_eq_ok_iff.mp built
  refine ⟨Hierarchy.build_eq_ok_iff.mpr ⟨wf.perm perm, rfl⟩, ?_⟩
  exact Hierarchy.alike_of_perm (Hierarchy.declared_distinct wf.names) (declared_perm perm)

/-! ## Checks of classes -/

/-- What the checker asks has the same answers in hierarchies that find the same classes. -/
theorem setting_alike (built : Hierarchy.build p = .ok h) (built' : Hierarchy.build p' = .ok h')
    (alike : h.Alike h') (m : Nat) (c : Class) :
    (setting h m c).SameRules (setting h' m c) where
  current := rfl
  isDefined := alike.isDefined
  isSubclass := alike.isSubclass c.name
  joins := alike.join c.name
  resolve start method := by
    have declared : ∀ owner, (MethodTable.build h').1.declared? owner method =
        (MethodTable.build h).1.declared? owner method := by
      intro owner
      rw [MethodTable.declared?_build_eq (Hierarchy.build_rooted built') (build_owned built'),
        MethodTable.declared?_build_eq (Hierarchy.build_rooted built) (build_owned built),
        alike.find]
    show MethodTable.resolve? _ h' start method = MethodTable.resolve? _ h start method
    simp only [MethodTable.resolve?, alike.ancestors, setting, declared]

theorem outcome_alike (built : Hierarchy.build p = .ok h) (built' : Hierarchy.build p' = .ok h')
    (alike : h.Alike h') (m : Nat) (c : Class) : outcome h' m c = outcome h m c := by
  have rules := setting_alike built built' alike m c
  have state : classState h' c = classState h c := by
    unfold classState
    rw [alike.classScope]
  funext f
  rw [outcome, state, Setting.typeFeature_congr rules rfl (classState_agrees h c)]
  rfl

theorem typeClass_alike (built : Hierarchy.build p = .ok h)
    (built' : Hierarchy.build p' = .ok h') (alike : h.Alike h') (m : Nat) (c : Class) :
    typeClass h' (MethodTable.build h').1 m c = typeClass h (MethodTable.build h).1 m c := by
  have outcomes := outcome_alike built built' alike m c
  simp only [typeClass_eq, classFindings, outcomes, alike.classScope]

/-! ## Runs -/

/-- The redeclared methods of a class. -/
def redeclared (c : Class) : List Finding :=
  (MethodTable.ofClass (ClassSignature.ofClass c)).2

/-- What an analysis found when it checked a class. -/
def checked (a : Analysis) (m : Nat) (c : Class) : List Finding :=
  (typeClass a.hierarchy a.methods m c).2

/-- A run reports on the declarations of one class after the other, and then on the checks of one
class after the other. -/
theorem typeIn_findings_classes (built : Hierarchy.build p = .ok h) (m : Nat) :
    (p.typeIn h m).findings =
      p.classes.flatMap redeclared ++ p.classes.flatMap (checked (p.typeIn h m) m) := by
  have redeclarations : (MethodTable.build h).2 = p.classes.flatMap redeclared := by
    rw [MethodTable.build_redeclarations (Hierarchy.build_rooted built) (build_owned built),
      (Hierarchy.build_eq_ok_iff.mp built).2, declared, List.flatMap_append,
      MethodTable.builtin_redeclared, List.nil_append, List.flatMap_map]
    rfl
  rw [typeIn_findings, redeclarations]
  congr 2
  funext c
  show _ = (typeClass h (MethodTable.build h).1 m c).2
  rw [typeClass_eq]

/-- An analysis and the analysis of the same classes in another order. -/
structure Reordered (p p' : Program) (m : Nat) (a a' : Analysis) : Prop where
  /-- At every expression of a class the same type, or none, is recorded. -/
  recorded : ∀ i i' c, p.classes[i]? = some c → p'.classes[i']? = some c →
    ∀ j path, a'.recordedType? i' j path = a.recordedType? i j path
  /-- The method tables hold the same under every class and name. -/
  declared : ∀ owner name, a'.methods.declared? owner name = a.methods.declared? owner name
  methods : a'.methods.methods.Perm a.methods.methods
  /-- The check of a class gives the same types and the same findings in the same order. -/
  classes : ∀ c, typeClass a'.hierarchy a'.methods m c = typeClass a.hierarchy a.methods m c
  /-- What is found is what is found for the classes, in their order. -/
  findings : a.findings = p.classes.flatMap redeclared ++ p.classes.flatMap (checked a m)
  findings' : a'.findings = p'.classes.flatMap redeclared ++ p'.classes.flatMap (checked a m)

theorem Reordered.findings_perm {a a' : Analysis} (reordered : Reordered p p' m a a')
    (perm : p'.classes.Perm p.classes) : a'.findings.Perm a.findings := by
  rw [reordered.findings, reordered.findings']
  exact (perm.flatMap_right redeclared).append (perm.flatMap_right (checked a m))

theorem typeIn_reordered (perm : p'.classes.Perm p.classes) (built : Hierarchy.build p = .ok h)
    (m : Nat) : Reordered p p' m (p.typeIn h m) (p'.typeIn p'.declared m) := by
  obtain ⟨built', alike⟩ := build_perm perm built
  have rooted := Hierarchy.build_rooted built
  have rooted' := Hierarchy.build_rooted built'
  have checks := typeClass_alike built built' alike m
  constructor
  · intro i i' c hc hc' j path
    rw [Analysis.recordedType?, Analysis.recordedType?, typeIn_nodes, typeIn_nodes, hc, hc',
      Option.bind_some, Option.bind_some, outcome_alike built built' alike]
  · intro owner name
    show (MethodTable.build p'.declared).1.declared? owner name =
      (MethodTable.build h).1.declared? owner name
    rw [MethodTable.declared?_build_eq rooted' (build_owned built'),
      MethodTable.declared?_build_eq rooted (build_owned built), alike.find]
  · show (MethodTable.build p'.declared).1.methods.Perm (MethodTable.build h).1.methods
    rw [MethodTable.build_methods rooted' (build_owned built'),
      MethodTable.build_methods rooted (build_owned built),
      (Hierarchy.build_eq_ok_iff.mp built).2]
    exact (declared_perm perm).flatMap_right _
  · exact checks
  · exact typeIn_findings_classes built m
  · have same : checked (p'.typeIn p'.declared m) m = checked (p.typeIn h m) m := by
      funext c
      exact congrArg Prod.snd (checks c)
    rw [← same]
    exact typeIn_findings_classes built' m

/-! ## Acceptance -/

theorem Accepted.perm (accepted : p.Accepted h m) (perm : p'.classes.Perm p.classes) :
    p'.Accepted p'.declared m where
  built := (build_perm perm accepted.built).1
  silent := by
    have all := (typeIn_reordered perm accepted.built m).findings_perm perm
    rw [accepted.silent] at all
    exact all.eq_nil

/-- A check that starts with nothing reported succeeds on accepted programs. -/
theorem check_ok_iff :
    (∃ sink a, p.check m Sink.empty = (sink, .ok a)) ↔ ∃ h, p.Accepted h m := by
  constructor
  · rintro ⟨sink, a, checked⟩
    obtain ⟨h, accepted, -⟩ := accepted_of_check checked
    exact ⟨h, accepted⟩
  · rintro ⟨h, accepted⟩
    refine ⟨Sink.empty, p.typeIn h m, ?_⟩
    rw [check, analyse_of_build accepted.built]
    simp only [accepted.silent, List.map_nil]
    rfl

/-! ## The main statement -/

/-- **The order of classes does not matter.**  A program and the same classes in another order both
have a hierarchy or neither has.  If they have, the types recorded and the method tables are the
same, and so are the diagnostics, up to the order of classes: what is found in the check of a class
is the same sequence.  Both are accepted or neither is. -/
theorem class_order_irrelevant (perm : p'.classes.Perm p.classes) (m : Nat) :
    ((∃ h, Hierarchy.build p = .ok h) ↔ ∃ h', Hierarchy.build p' = .ok h') ∧
      (∀ h, Hierarchy.build p = .ok h →
        (∃ a a', p.analyse m = .ok a ∧ p'.analyse m = .ok a' ∧ Reordered p p' m a a') ∧
          (p'.check m Sink.empty).1.messages.Perm (p.check m Sink.empty).1.messages) ∧
      ((∃ sink a, p.check m Sink.empty = (sink, .ok a)) ↔
        ∃ sink a, p'.check m Sink.empty = (sink, .ok a)) := by
  refine ⟨⟨?_, ?_⟩, ?_, ?_⟩
  · rintro ⟨h, built⟩
    exact ⟨_, (build_perm perm built).1⟩
  · rintro ⟨h', built'⟩
    exact ⟨_, (build_perm perm.symm built').1⟩
  · intro h built
    have built' := (build_perm perm built).1
    have reordered := typeIn_reordered perm built m
    refine ⟨⟨_, _, analyse_of_build built, analyse_of_build built', reordered⟩, ?_⟩
    rw [check_messages built, check_messages built']
    exact ((reordered.findings_perm perm).map Finding.diagnostic).append_left _
  · rw [check_ok_iff, check_ok_iff]
    constructor
    · rintro ⟨h, accepted⟩
      exact ⟨_, accepted.perm perm⟩
    · rintro ⟨h', accepted⟩
      exact ⟨_, accepted.perm perm.symm⟩

/-- A call of a method that the class `Leaf` inherits. -/
def callsLeaf : Class :=
  ⟨1, "Main", "Object", "order.cl",
    [.method ⟨2, "main", [], "Bool", ⟨2, .dispatch ⟨2, .new "Leaf"⟩ "value" []⟩⟩]⟩

/-- A class that inherits all that it has. -/
def leafClass : Class :=
  ⟨4, "Leaf", "Base", "order.cl", []⟩

/-- A class that declares a method twice. -/
def baseClass : Class :=
  ⟨5, "Base", "Object", "order.cl",
    [.method ⟨6, "value", [], "Int", ⟨6, .int 1⟩⟩,
      .method ⟨7, "value", [], "Int", ⟨7, .bool true⟩⟩]⟩

/-- Forward references and backward references are resolved alike, and the wrong results of two
methods are reported in another order. -/
theorem class_order_irrelevant_forward_reference :
    [baseClass, leafClass, callsLeaf].Perm [callsLeaf, leafClass, baseClass] ∧
      ∃ a a', analyse ⟨[callsLeaf, leafClass, baseClass]⟩ 1000 = .ok a ∧
        analyse ⟨[baseClass, leafClass, callsLeaf]⟩ 1000 = .ok a' ∧
        a'.findings.Perm a.findings ∧ a'.findings ≠ a.findings ∧
        a.recordedType? 0 0 [] = some "Int" ∧ a'.recordedType? 2 0 [] = some "Int" := by
  have perm : (Program.mk [baseClass, leafClass, callsLeaf]).classes.Perm
      (Program.mk [callsLeaf, leafClass, baseClass]).classes :=
    List.reverse_perm [callsLeaf, leafClass, baseClass]
  obtain ⟨a, a', analysed, analysed', reordered⟩ :=
    ((class_order_irrelevant perm 1000).2.1 _ rfl).1
  have differ : a'.findings ≠ a.findings := by
    cases analysed
    cases analysed'
    decide
  have recorded : a.recordedType? 0 0 [] = some "Int" := by
    cases analysed
    rfl
  refine ⟨perm, a, a', analysed, analysed', reordered.findings_perm perm, differ, recorded, ?_⟩
  rw [reordered.recorded 0 2 callsLeaf rfl rfl, recorded]

end Program

end SelfTyped
