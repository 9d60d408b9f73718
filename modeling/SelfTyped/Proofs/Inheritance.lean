/-
SelfTyped.Proofs.Inheritance — a class has what its ancestors have.

The scope of every class is collected anew: the attributes of the
ancestors first, closest ancestor first, and its own last.  So along a
parent link the attributes of the parent move from the last place to the
first.  This makes no difference where no attribute of the parent has the
name of one that the parent inherits (`Hierarchy.FreshAttributes`), and
then the scope of a class is that of its parent with its own attributes
added (`ofClass_of_link`).  In an accepted program no attribute was
reported as a redefinition, and the attributes are fresh.

Methods need no such condition: along a parent link a call finds the
declaration that it finds in the parent, or an own one
(`Resolves.of_extends`).

Both are stated for one parent link and then followed up the hierarchy.
-/
import SelfTyped.Proofs.Acceptance
import SelfTyped.Proofs.Runs

namespace SelfTyped

variable {h : Hierarchy} {c d : ClassSignature} {vars : Variables} {Γ : TypeEnv}
  {name method t a b : Name} {m : MethodSignature}

/-! ## Ancestors -/

namespace Hierarchy

theorem WayUp.eq_ancestors {way : List ClassSignature} (rooted : h.Rooted) (up : h.WayUp a way) :
    h.ancestors a = way := by
  refine up.ancestorsWithin_eq ?_
  rw [← up.ancestorsWithin_eq (Nat.le_refl _)]
  exact length_ancestorsWithin_le rooted way.length (some a)

/-- The ancestors of a class are the class and the ancestors of its parent. -/
theorem ancestors_of_link (rooted : h.Rooted) (found : h.find? a = some c)
    (link : c.parent = some b) : h.ancestors a = c :: h.ancestors b := by
  have above := ancestors_wayUp rooted (rooted.closed a b (extends_of_find? found link))
  exact (WayUp.step found link above).eq_ancestors rooted

theorem ancestors_cons (found : h.find? a = some c) :
    ∃ above, h.ancestors a = c :: above := by
  obtain ⟨steps, hsteps⟩ := Nat.exists_eq_succ_of_ne_zero
    (List.length_pos_of_mem (find?_mem found).1).ne'
  rw [ancestors, hsteps]
  exact ⟨_, ancestorsWithin_found steps found⟩

/-- Between known classes conformance is reachability, inside whatever class. -/
theorem isSubclass_iff_below {current : Name} (rooted : h.Rooted) (ha : h.isDefined a = true)
    (hb : h.isDefined b = true) : h.isSubclass current a b = true ↔ h.Below a b := by
  rw [isSubclass_iff rooted, resolve_of_isDefined rooted ha, resolve_of_isDefined rooted hb]
  exact and_iff_right ha

/-- The attributes that a class inherits, those of the closest ancestor first. -/
def inheritedAttributes (h : Hierarchy) (c : ClassSignature) : List AttributeSignature :=
  ((h.ancestors c.name).drop 1).flatMap ClassSignature.attributes

/-- No attribute of a class has the name of one that the class inherits. -/
def FreshAttributes (h : Hierarchy) (c : ClassSignature) : Prop :=
  ∀ own ∈ c.attributes, own.name ≠ Known.self →
    ∀ inherited ∈ h.inheritedAttributes c, inherited.name ≠ own.name

theorem inheritedAttributes_of_link (rooted : h.Rooted) (hc : c ∈ h.classes) (hd : d ∈ h.classes)
    (link : c.parent = some d.name) :
    h.inheritedAttributes c = d.attributes ++ h.inheritedAttributes d := by
  have own := find?_name rooted.distinct hc
  obtain ⟨above, split⟩ := ancestors_cons (find?_name rooted.distinct hd)
  rw [inheritedAttributes, inheritedAttributes, ancestors_of_link rooted own link, split]
  exact List.flatMap_cons

end Hierarchy

/-! ## Redefinitions -/

namespace TypeEnv

/-- The attributes whose names are taken when they are added, in this order, to an environment. -/
def redefined (Γ : TypeEnv) : List AttributeSignature → List AttributeSignature
  | [] => []
  | a :: rest =>
    (if a.name ≠ Known.self ∧ (Γ a.name).isSome then [a] else []) ++
      (Γ.withAttributes [a]).redefined rest

/-- An attribute that is not redefined has a name that is free from the start. -/
theorem eq_none_of_redefined {attributes : List AttributeSignature}
    (none : Γ.redefined attributes = []) :
    ∀ own ∈ attributes, own.name ≠ Known.self → Γ own.name = Option.none := by
  induction attributes generalizing Γ with
  | nil => exact fun own mem => absurd mem List.not_mem_nil
  | cons first rest ih =>
    rw [redefined, List.append_eq_nil_iff] at none
    intro own mem notSelf
    rcases List.mem_cons.mp mem with rfl | mem
    · have free := none.1
      rw [ite_eq_right_iff] at free
      have free := fun taken => free ⟨notSelf, taken⟩
      simpa using free
    · have later := ih none.2 own mem notSelf
      rw [withAttributes, Option.or_eq_none_iff] at later
      exact later.1

end TypeEnv

/-- **What is reported of the attributes of a class** are those that are redefined. -/
theorem declareAll_findings (attributes : List AttributeSignature) (agrees : vars.Agrees Γ)
    (self : (Γ Known.self).isSome = true) (found : List Finding) :
    (attributes.foldl (Variables.declare c) (vars, found)).2 =
      found ++ (Γ.redefined attributes).map fun a =>
        ⟨⟨c.file, a.line⟩, .attributeRedefined a.name⟩ := by
  induction attributes generalizing vars Γ found with
  | nil => rw [TypeEnv.redefined, List.map_nil, List.append_nil, List.foldl_nil]
  | cons first rest ih =>
    have step : Variables.declare c (vars, found) first = (vars.inherit first, found ++
        (if first.name ≠ Known.self ∧ (Γ first.name).isSome then [first] else []).map fun a =>
          ⟨⟨c.file, a.line⟩, .attributeRedefined a.name⟩) := by
      rw [Variables.declare, Variables.inherit, agrees.lookup]
      by_cases isSelf : first.name = Known.self
      · simp [isSelf]
      · by_cases taken : (Γ first.name).isSome = true <;> simp [isSelf, taken]
    rw [List.foldl_cons, step,
      ih (agrees_inherit agrees self first) (TypeEnv.isSome_withAttributes self [first]),
      TypeEnv.redefined, List.map_append, List.append_assoc]

/-- A class of which no redefinition is reported has fresh attributes. -/
theorem freshAttributes_of_silent (silent : (Variables.ofClass h c).2 = []) :
    h.FreshAttributes c := by
  have inherited := agrees_inheritAll (h.inheritedAttributes c) agrees_ofEveryClass rfl
  have findings := declareAll_findings (c := c) c.attributes inherited
    (TypeEnv.isSome_withAttributes rfl _) []
  rw [List.nil_append] at findings
  have none := List.map_eq_nil_iff.mp (findings.symm.trans silent)
  intro own mem notSelf other hother same
  have free := TypeEnv.eq_none_of_redefined none own mem notSelf
  rw [TypeEnv.withAttributes, Option.or_eq_none_iff, Option.map_eq_none_iff,
    List.find?_eq_none] at free
  exact free.2 other hother (beq_iff_eq.mpr same)

/-! ## Scopes along parent links -/

/-- Where attributes are fresh, the own ones may come first. -/
theorem find?_attributesInScope (fresh : h.FreshAttributes d) (notSelf : name ≠ Known.self) :
    ((d.attributes ++ h.inheritedAttributes d).find? fun a => a.name == name) =
      (attributesInScope h d).find? fun a => a.name == name := by
  rw [attributesInScope, ← Hierarchy.inheritedAttributes, List.find?_append, List.find?_append]
  cases own : d.attributes.find? fun a => a.name == name with
  | none => rw [Option.none_or, Option.or_none]
  | some a =>
    have named : a.name = name := by simpa using List.find?_some own
    have none : (h.inheritedAttributes d).find? (fun a => a.name == name) = none := by
      rw [List.find?_eq_none]
      intro other hother same
      exact fresh a (List.mem_of_find?_eq_some own) (named ▸ notSelf) other hother
        ((beq_iff_eq.mp same).trans named.symm)
    rw [none, Option.some_or, Option.none_or]

/-- **The scope of a class is that of its parent with its own attributes added**, if the attributes
of the parent are fresh. -/
theorem ofClass_of_link (rooted : h.Rooted) (hc : c ∈ h.classes) (hd : d ∈ h.classes)
    (link : c.parent = some d.name) (fresh : h.FreshAttributes d) :
    TypeEnv.ofClass h c = (TypeEnv.ofClass h d).withAttributes c.attributes := by
  funext name
  rw [TypeEnv.ofClass, TypeEnv.ofClass, attributesInScope, ← Hierarchy.inheritedAttributes,
    Hierarchy.inheritedAttributes_of_link rooted hc hd link, TypeEnv.withAttributes,
    TypeEnv.withAttributes, TypeEnv.withAttributes, List.find?_append, Option.map_or,
    ← Option.or_assoc]
  by_cases isSelf : name = Known.self
  · simp only [if_pos isSelf, Option.some_or]
  · rw [find?_attributesInScope fresh isSelf]

/-! ## Methods along parent links -/

namespace Hierarchy

/-- A method is found in a class above the one that the call starts from. -/
theorem Resolves.below_owner (owned : h.Owned) (resolves : h.Resolves method a m) :
    h.Below a m.owner := by
  induction resolves with
  | own found first =>
    obtain ⟨hc, rfl⟩ := find?_mem found
    rw [owned _ hc _ (List.mem_of_find?_eq_some first)]
    exact Relation.ReflTransGen.refl
  | inherited found _ link _ ih =>
    exact Relation.ReflTransGen.head (extends_of_find? found link) ih

/-- A class has a declaration of every method that its parent has: its own, or the same. -/
theorem Resolves.of_extends (rooted : h.Rooted) (owned : h.Owned) (link : h.Extends a b)
    (resolves : h.Resolves method b m) :
    ∃ m', h.Resolves method a m' ∧ h.Below m'.owner m.owner := by
  obtain ⟨c, found, parent⟩ := link.find? rooted.distinct
  cases first : c.methods.find? fun m => m.name == method with
  | none => exact ⟨m, .inherited found first parent resolves, Relation.ReflTransGen.refl⟩
  | some m' =>
    have owner : m'.owner = a := by
      rw [owned c (find?_mem found).1 m' (List.mem_of_find?_eq_some first), (find?_mem found).2]
    refine ⟨m', .own found first, ?_⟩
    rw [owner]
    exact Relation.ReflTransGen.head link (resolves.below_owner owned)

/-- **A class has a declaration of every method that an ancestor has**, in a class between the two
or in the same class. -/
theorem Resolves.of_below (rooted : h.Rooted) (owned : h.Owned) (below : h.Below a b)
    (resolves : h.Resolves method b m) :
    ∃ m', h.Resolves method a m' ∧ h.Below m'.owner m.owner := by
  induction below using Relation.ReflTransGen.head_induction_on with
  | refl => exact ⟨m, resolves, Relation.ReflTransGen.refl⟩
  | head link _ ih =>
    obtain ⟨above, found, higher⟩ := ih
    obtain ⟨m', found', closer⟩ := found.of_extends rooted owned link
    exact ⟨m', found', closer.trans higher⟩

end Hierarchy

/-! ## Accepted programs -/

namespace Program

variable {p : Program} {maxDepth : Nat}

theorem Accepted.classFindings {c : Class} (accepted : p.Accepted h maxDepth)
    (hc : c ∈ p.classes) : classFindings h maxDepth c = [] := by
  have silent := accepted.silent
  rw [typeIn_findings, List.append_eq_nil_iff, List.flatMap_eq_nil_iff] at silent
  exact silent.2 c hc

/-- In an accepted program every class that is inherited from has fresh attributes. -/
theorem Accepted.freshAttributes (accepted : p.Accepted h maxDepth) (hd : d ∈ h.classes)
    (link : h.Extends a d.name) : h.FreshAttributes d := by
  have rooted := Hierarchy.build_rooted accepted.built
  obtain ⟨wf, rfl⟩ := Hierarchy.build_eq_ok_iff.mp accepted.built
  rcases Hierarchy.mem_declared hd with basic | ⟨user, huser, rfl⟩
  · -- no class has a built-in class with attributes as its parent
    intro own mem
    have same := Hierarchy.eq_of_below_basic wf.parents
      (builtin_attributes d basic (List.ne_nil_of_mem mem)) (Relation.ReflTransGen.single link)
    rw [same] at link
    exact absurd (Relation.TransGen.single link) (rooted.acyclic d.name)
  · have silent := accepted.classFindings huser
    rw [Program.classFindings, List.append_eq_nil_iff] at silent
    exact freshAttributes_of_silent silent.1

/-- **A class sees the variables of its ancestors**, with the same types. -/
theorem Accepted.ofClass_below (accepted : p.Accepted h maxDepth) (hd : d ∈ h.classes)
    (bound : TypeEnv.ofClass h d name = some t) (below : h.Below a d.name) :
    ∀ c ∈ h.classes, c.name = a → TypeEnv.ofClass h c name = some t := by
  have rooted := Hierarchy.build_rooted accepted.built
  have unique : ∀ c ∈ h.classes, ∀ c' ∈ h.classes, c.name = c'.name → c = c' :=
    fun c hc c' hc' same => List.inj_on_of_nodup_map rooted.distinct hc hc' same
  induction below using Relation.ReflTransGen.head_induction_on with
  | refl =>
    intro c hc named
    rw [unique c hc d hd named]
    exact bound
  | @head a b link _ ih =>
    intro c hc named
    obtain ⟨c', hc', named', parent⟩ := link
    obtain rfl := unique c' hc' c hc (named'.trans named.symm)
    obtain ⟨next, hnext, rfl⟩ := List.mem_map.mp
      (Hierarchy.isDefined_iff_mem.mp (rooted.closed a b ⟨c', hc, named, parent⟩))
    have fresh := accepted.freshAttributes hnext ⟨c', hc, named, parent⟩
    rw [ofClass_of_link rooted hc hnext parent fresh]
    exact TypeEnv.withAttributes_of_some (ih next hnext rfl) c'.attributes

/-- The names visible in a class are visible in the classes below it, with the same types. -/
theorem Accepted.visible_below (accepted : p.Accepted h maxDepth) (hc : c ∈ h.classes)
    (hd : d ∈ h.classes) (below : h.Below c.name d.name)
    (mem : name ∈ (Variables.ofClass h d).1.visible) :
    name ∈ (Variables.ofClass h c).1.visible ∧
      ∃ t, (Variables.ofClass h d).1.lookup name = some t ∧
        (Variables.ofClass h c).1.lookup name = some t := by
  have upper := agrees_ofClass h d
  have lower := agrees_ofClass h c
  obtain ⟨t, bound⟩ := Option.isSome_iff_exists.mp
    ((Scoped.mem_visible_iff upper.consistent).mp mem)
  have bound' : Scoped.lookup (Variables.ofClass h c).1 name = some t := by
    rw [lower.lookup]
    exact accepted.ofClass_below hd (upper.lookup name ▸ bound) below c hc rfl
  refine ⟨(Scoped.mem_visible_iff lower.consistent).mpr ?_, t, bound, bound'⟩
  rw [bound', Option.isSome_some]

/-- **Inheritance is coherent.**  In an accepted program a class sees every variable that a class
above it sees, with the same type, and where a call on the upper class finds a method, a call on the
lower one finds a declaration of that method in a class that lies between the two. -/
theorem inheritance_coherent {sink sink' : Sink} {analysis : Analysis} {current : Name}
    (checked : p.check maxDepth sink = (sink', .ok analysis))
    (hc : c ∈ analysis.hierarchy.classes) (hd : d ∈ analysis.hierarchy.classes)
    (below : analysis.hierarchy.isSubclass current c.name d.name = true) :
    (∀ x ∈ (Variables.ofClass analysis.hierarchy d).1.visible,
      x ∈ (Variables.ofClass analysis.hierarchy c).1.visible ∧
        ∃ t, (Variables.ofClass analysis.hierarchy d).1.lookup x = some t ∧
          (Variables.ofClass analysis.hierarchy c).1.lookup x = some t) ∧
      ∀ method m, analysis.methods.resolve? analysis.hierarchy d.name method = some m →
        ∃ m', analysis.methods.resolve? analysis.hierarchy c.name method = some m' ∧
          analysis.hierarchy.isSubclass current c.name m'.owner = true ∧
          analysis.hierarchy.isSubclass current m'.owner m.owner = true := by
  obtain ⟨h, accepted, rfl⟩ := accepted_of_check checked
  change c ∈ h.classes at hc
  change d ∈ h.classes at hd
  have rooted := Hierarchy.build_rooted accepted.built
  have owned := build_owned accepted.built
  have defined := Hierarchy.isDefined_of_mem hc
  have below : h.Below c.name d.name :=
    (Hierarchy.isSubclass_iff_below rooted defined (Hierarchy.isDefined_of_mem hd)).mp below
  refine ⟨fun x mem => accepted.visible_below hc hd below mem, fun method m found => ?_⟩
  have resolves := (MethodTable.resolve?_eq_some_iff rooted owned).mp found
  obtain ⟨m', resolves', between⟩ := resolves.of_below rooted owned below
  have lower := resolves'.below_owner owned
  have owner := lower.isDefined rooted defined
  refine ⟨m', (MethodTable.resolve?_eq_some_iff rooted owned).mpr resolves', ?_, ?_⟩
  · exact (Hierarchy.isSubclass_iff_below rooted defined owner).mpr lower
  · exact (Hierarchy.isSubclass_iff_below rooted owner (between.isDefined rooted owner)).mpr between

/-- A class with an attribute and a method. -/
def shapeClass : Class :=
  ⟨1, "Shape", "IO", "shapes.cl",
    [.attr ⟨2, "area", "Int", ⟨2, .int 1⟩⟩, .method ⟨3, "size", [], "Int", ⟨3, .object "area"⟩⟩]⟩

/-- A class that overrides the method of `shapeClass`. -/
def squareClass : Class :=
  ⟨5, "Square", "Shape", "shapes.cl",
    [.attr ⟨6, "side", "Int", ⟨6, .object "area"⟩⟩,
      .method ⟨7, "size", [], "Int", ⟨7, .object "side"⟩⟩]⟩

/-- A class that inherits all that it has, declared before its ancestors. -/
def tileClass : Class :=
  ⟨9, "Main", "Square", "shapes.cl", []⟩

/-- Two levels below `Shape` the attribute `area` is visible, and a call of `size` finds the method
of the class between. -/
theorem inheritance_coherent_overridden :
    ∃ sink a, check ⟨[tileClass, squareClass, shapeClass]⟩ 1000 Sink.empty = (sink, .ok a) ∧
      ClassSignature.ofClass tileClass ∈ a.hierarchy.classes ∧
      ClassSignature.ofClass shapeClass ∈ a.hierarchy.classes ∧
      a.hierarchy.isSubclass "Main" "Main" "Shape" = true ∧
      "area" ∈ (Variables.ofClass a.hierarchy (ClassSignature.ofClass tileClass)).1.visible ∧
      ∃ m m', a.methods.resolve? a.hierarchy "Shape" "size" = some m ∧ m.owner = "Shape" ∧
        a.methods.resolve? a.hierarchy "Main" "size" = some m' ∧ m'.owner = "Square" ∧
        a.hierarchy.isSubclass "Main" m'.owner m.owner = true := by
  obtain ⟨sink, a, checked, known, knownAbove, below, visible, method, upper, owner, lower⟩ :
      ∃ sink a, check ⟨[tileClass, squareClass, shapeClass]⟩ 1000 Sink.empty = (sink, .ok a) ∧
        ClassSignature.ofClass tileClass ∈ a.hierarchy.classes ∧
        ClassSignature.ofClass shapeClass ∈ a.hierarchy.classes ∧
        a.hierarchy.isSubclass "Main" "Main" "Shape" = true ∧
        "area" ∈ (Variables.ofClass a.hierarchy (ClassSignature.ofClass shapeClass)).1.visible ∧
        ∃ m, a.methods.resolve? a.hierarchy "Shape" "size" = some m ∧ m.owner = "Shape" ∧
          (a.methods.resolve? a.hierarchy "Main" "size").map MethodSignature.owner =
            some "Square" :=
    ⟨_, _, rfl, by decide, by decide, by decide, by decide, _, rfl, rfl, rfl⟩
  obtain ⟨scopes, methods⟩ := inheritance_coherent checked known knownAbove below
  obtain ⟨m', found, -, between⟩ := methods "size" method upper
  change a.methods.resolve? a.hierarchy "Main" "size" = some m' at found
  rw [found, Option.map_some, Option.some.injEq] at lower
  exact ⟨sink, a, checked, known, knownAbove, below, (scopes "area" visible).1, method, m',
    upper, owner, found, lower, between⟩

end Program

end SelfTyped
