/-
SelfTyped.Proofs.DiagnosticPlaces — every diagnostic points into the program.

What the checker looks at while it checks a class comes from everywhere:
attributes and methods of ancestors, built-in classes that no file declares,
and classes of other files.  Here it is shown that none of this gets into the
places that are reported.  A finding is about a construct of the class that is
checked, in the file of the class, and its line is that of a construct of the
class (`Class.Locates`); a violation of the hierarchy is reported where the
class that it names is declared.  So every diagnostic has a place in the
program (`Program.Places`), but for the one about the class `Main`, which has
none.

For expressions this is an induction over parts (`typeExpr_about`), from what
every rule says of its own node (`ownFindings_about`).  The scope of a class
and the method table report on their own declarations, which are read back
from the signature to the class (`redefined_located`, `redeclared_located`).
-/
import SelfTyped.Proofs.ClassOrder
import SelfTyped.Proofs.OwnFindings
import SelfTyped.Proofs.Redeclarations

namespace SelfTyped

variable {f : Finding} {line : Nat} {error : TypeError} {c : Class} {feature : Feature}

/-! ## Constructs -/

namespace Construct

variable {outer middle inner construct : Construct}

theorem Holds.of_part (mem : inner ∈ outer.parts) : outer.Holds inner :=
  .inside mem .here

theorem Holds.trans (holds : outer.Holds middle) (below : middle.Holds inner) :
    outer.Holds inner := by
  induction holds with
  | here => exact below
  | inside mem _ ih => exact .inside mem (ih below)

/-- An expression holds its parts, also those that stand in a branch. -/
theorem holds_part {form : Form} {part : Part} (mem : part ∈ form.parts) :
    (Construct.expr ⟨line, form⟩).Holds (.expr part.expr) := by
  cases form with
  | case scrutinee branches =>
    rcases List.mem_cons.mp mem with rfl | inBranch
    · exact .of_part List.mem_cons_self
    · obtain ⟨branch, among, rfl⟩ := List.mem_map.mp inBranch
      refine .inside (List.mem_cons_of_mem _ (List.mem_map_of_mem among)) ?_
      exact .of_part (List.mem_singleton_self (Construct.expr branch.body))
  | _ =>
    have child := List.mem_map_of_mem (f := Part.expr) mem
    rw [Form.map_expr_parts] at child
    exact .of_part (List.mem_map_of_mem (f := Construct.expr) child)

theorem holds_root (feature : Feature) :
    (Construct.feature feature).Holds (.expr feature.root) := by
  cases feature with
  | attr decl => exact .of_part (List.mem_singleton_self (Construct.expr decl.init))
  | method decl => exact .of_part (List.mem_append_right _ (List.mem_singleton_self _))

/-- An error is reported at the line of the construct that it is about, or at that of its
initializer or body. -/
theorem Fault.line_inside (fault : construct.Fault line error) :
    ∃ place, construct.Holds place ∧ place.line = line := by
  cases fault with
  | attributeInitMismatch decl => exact ⟨_, holds_root (.attr decl), rfl⟩
  | returnTypeMismatch decl => exact ⟨_, holds_root (.method decl), rfl⟩
  | _ => exact ⟨_, .here, rfl⟩

end Construct

/-- What is about a construct of a class has its place in the class. -/
theorem Class.Has.locates {construct : Construct} (has : c.Has construct)
    (about : f.IsAbout c.file construct) : c.Locates f where
  about := ⟨construct, has, about⟩
  line := by
    obtain ⟨feature, hf, holds⟩ := has
    obtain ⟨place, inside, same⟩ := about.fault.line_inside
    exact ⟨place, ⟨feature, hf, holds.trans inside⟩, same⟩

/-! ## Expressions and features -/

namespace Setting

variable {g : Setting} {s : CheckState} {Γ : TypeEnv}

/-- **What is found in an expression** is about a construct in it. -/
theorem typeExpr_about (consistent : s.vars.Consistent) {e : Expr}
    (mem : f ∈ (g.typeExpr s e).findings) :
    ∃ construct, (Construct.expr e).Holds construct ∧ f.IsAbout g.current.file construct := by
  induction e using Expr.parts_induction generalizing s with
  | step line form ih =>
    rw [typeExpr] at mem
    split at mem
    · exact ⟨_, .here, about_report (.expr line (.nestingTooDeep form _)) f mem⟩
    · have deeper : s.deeper.vars.Consistent := consistent
      rcases (mem_infer_findings deeper).mp mem with own | ⟨part, hpart, inPart⟩
      · rcases ownFindings_about own with about | ⟨branch, among, about⟩
        · exact ⟨_, .here, about⟩
        · exact ⟨_, .of_part among, about⟩
      · obtain ⟨construct, holds, about⟩ :=
          ih part hpart (CheckState.consistent_under deeper part.binder) inPart
        exact ⟨construct, (Construct.holds_part hpart).trans holds, about⟩

theorem typeFeature_about (agrees : s.vars.Agrees Γ)
    (mem : f ∈ (g.typeFeature s feature).findings) :
    ∃ construct, (Construct.feature feature).Holds construct ∧
      f.IsAbout g.current.file construct := by
  rcases mem_typeFeature_findings mem with inRoot | about | ⟨formal, among, about⟩
  · obtain ⟨construct, holds, about⟩ :=
      typeExpr_about (featureState_consistent (g := g) agrees feature) inRoot
    exact ⟨construct, (Construct.holds_root feature).trans holds, about⟩
  · exact ⟨_, .here, about⟩
  · exact ⟨_, .of_part among, about⟩

end Setting

/-! ## Classes -/

namespace Program

variable {p : Program} {h : Hierarchy} {m : Nat} {v : Violation}

theorem outcome_located (hf : feature ∈ c.features)
    (mem : f ∈ (outcome h m c feature).findings) : c.Locates f := by
  obtain ⟨construct, holds, about⟩ := Setting.typeFeature_about (classState_agrees h c) mem
  exact Class.Has.locates ⟨feature, hf, holds⟩ about

/-- An attribute that an ancestor declares is reported in the class that declares it again. -/
theorem redefined_located (mem : f ∈ (Variables.ofClass h (ClassSignature.ofClass c)).2) :
    c.Locates f := by
  rw [Variables.ofClass_reported] at mem
  obtain ⟨a, reported, rfl⟩ := List.mem_map.mp mem
  have own := redeclared_subset _ _ _ (List.mem_filter.mp reported).1
  obtain ⟨decl, declared, rfl⟩ := List.mem_map.mp own
  exact Class.Has.locates ⟨_, Class.mem_attributes declared, .here⟩
    ⟨rfl, .attributeRedefined decl⟩

theorem redeclared_located (mem : f ∈ redeclared c) : c.Locates f := by
  have owned : ∀ method ∈ (ClassSignature.ofClass c).methods, method.owner = c.name :=
    List.forall_mem_map.mpr fun _ _ => rfl
  rw [redeclared, MethodTable.ofClass_reported owned] at mem
  obtain ⟨signature, reported, rfl⟩ := List.mem_map.mp mem
  obtain ⟨decl, declared, rfl⟩ := List.mem_map.mp (redeclared_subset _ _ _ reported)
  exact Class.Has.locates ⟨_, Class.mem_methods declared, .here⟩ ⟨rfl, .methodRedefined decl⟩

/-- What is found in the check of a class has its place in the class. -/
theorem checked_located (mem : f ∈ checked (p.typeIn h m) m c) : c.Locates f := by
  change f ∈ (typeClass h (MethodTable.build h).1 m c).2 at mem
  rw [typeClass_eq, classFindings, List.mem_append, List.mem_flatMap] at mem
  rcases mem with attributes | ⟨feature, hf, inFeature⟩
  · exact redefined_located attributes
  · exact outcome_located hf inFeature

/-! ## Programs -/

/-- A violation of the hierarchy is reported at the class that it names. -/
theorem FirstFault.places (fault : p.FirstFault v) : p.Places v.diagnostic := by
  cases fault with
  | basicRedefined split | redefined split =>
    refine .hierarchy ?_ rfl
    rw [split]
    exact List.mem_append_right _ List.mem_cons_self
  | noMain => exact .noMain
  | link _ _ hc fault => cases fault <;> exact .hierarchy hc rfl

theorem typeIn_places (built : Hierarchy.build p = .ok h) (mem : f ∈ (p.typeIn h m).findings) :
    p.Places f.diagnostic := by
  rw [typeIn_findings_classes built, List.mem_append] at mem
  rcases mem with methods | classes
  · obtain ⟨c, hc, inClass⟩ := List.mem_flatMap.mp methods
    exact .typing hc (redeclared_located inClass)
  · obtain ⟨c, hc, inClass⟩ := List.mem_flatMap.mp classes
    exact .typing hc (checked_located inClass)

/-- **Every diagnostic points into the program.**  Whatever a check reports is at a class of the
program that it names, or at a construct of a class of the program that it is about, or it says that
there is no class `Main`.  What is found about a class is at constructs of this class. -/
theorem diagnostics_located (p : Program) (m : Nat) (sink : Sink) :
    (∃ reported, (p.check m sink).1.messages = sink.messages ++ reported ∧
        ∀ d ∈ reported, p.Places d) ∧
      ∀ a, p.analyse m = .ok a → ∀ c ∈ p.classes, ∀ f ∈ redeclared c ++ checked a m c,
        c.Locates f := by
  refine ⟨?_, ?_⟩
  · cases built : Hierarchy.build p with
    | error v =>
      refine ⟨[v.diagnostic], ?_, ?_⟩
      · rw [check_of_violation built, Sink.messages_emit]
      · exact List.forall_mem_singleton.mpr (Hierarchy.firstFault_of_build built).places
    | ok h =>
      refine ⟨_, check_messages built m sink, List.forall_mem_map.mpr fun f mem => ?_⟩
      exact typeIn_places built mem
  · intro a analysed c _ f mem
    obtain ⟨h, -, rfl⟩ := analyse_eq_ok_iff.mp analysed
    rcases List.mem_append.mp mem with declared | inClass
    · exact redeclared_located declared
    · exact checked_located inClass

/-- A class in one file that declares an attribute of its parent again, gives another one a value of
the wrong type, and calls a method of its parent with the wrong argument. -/
def inheritingClass : Class :=
  ⟨1, "Main", "Base", "main.cl",
    [.attr ⟨2, "x", "Int", ⟨2, .noExpr⟩⟩, .attr ⟨3, "y", "Int", ⟨4, .bool true⟩⟩,
      .method ⟨5, "main", [], "Object",
        ⟨6, .dispatch ⟨6, .object "self"⟩ "f" [⟨7, .string "text"⟩]⟩⟩]⟩

/-- The parent, in another file.  It declares a method twice. -/
def inheritedClass : Class :=
  ⟨1, "Base", "IO", "base.cl",
    [.attr ⟨2, "x", "Int", ⟨2, .int 0⟩⟩,
      .method ⟨3, "f", [⟨4, "n", "Int"⟩], "Int", ⟨5, .object "n"⟩⟩,
      .method ⟨6, "f", [⟨7, "n", "SELF_TYPE"⟩], "Int",
        ⟨8, .case ⟨8, .object "n"⟩ [⟨9, "n", "Ghost", ⟨10, .int 1⟩⟩]⟩⟩]⟩

/-- What is wrong with the use of an inherited declaration is reported at the use. -/
theorem diagnostics_located_inherited :
    ∃ reported, (check ⟨[inheritingClass, inheritedClass]⟩ 1000 Sink.empty).1.messages = reported ∧
      (∀ d ∈ reported, Places ⟨[inheritingClass, inheritedClass]⟩ d) ∧
      reported.map Diagnostic.location =
        [some ⟨"base.cl", 6⟩, some ⟨"main.cl", 2⟩, some ⟨"main.cl", 4⟩, some ⟨"main.cl", 6⟩,
          some ⟨"base.cl", 7⟩, some ⟨"base.cl", 9⟩] := by
  obtain ⟨⟨reported, messages, placed⟩, -⟩ :=
    diagnostics_located ⟨[inheritingClass, inheritedClass]⟩ 1000 Sink.empty
  refine ⟨reported, messages, placed, ?_⟩
  have same : (check ⟨[inheritingClass, inheritedClass]⟩ 1000 Sink.empty).1.messages = reported :=
    messages
  rw [← same]
  rfl

end Program

end SelfTyped
