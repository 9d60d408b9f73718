/-
SelfTyped.Proofs.NestingReports — where the nesting limit is reported.

No rule reports the nesting limit, nor does the check of a declaration;
only the cut at the limit does.  So of the findings of an expression, those
that report the limit are the ones of its parts (`infer_cuts`), and of the
findings of a run, those of the initializers and bodies
(`typeIn_cuts`).
-/
import SelfTyped.Proofs.ErrorKinds
import SelfTyped.Proofs.Runs

namespace SelfTyped

/-- The reports of the nesting limit among findings. -/
def cuts (findings : List Finding) : List Finding :=
  findings.filter fun f => f.error.isCut

@[simp] theorem cuts_eq (findings : List Finding) :
    cuts findings = ErrorKind.cut.among findings := rfl

namespace Setting

variable {g : Setting} {s : CheckState}

/-- A demand whose error is another one than the limit does not report the limit. -/
@[simp] theorem cut_among_require {condition : Bool} {line : Nat} {error : TypeError}
    (other : ∀ limit, error ≠ .nestingTooDeep limit) :
    ErrorKind.cut.among (g.require condition line error) = [] := by
  have notCut : error.isCut = false := by
    cases error with
    | nestingTooDeep limit => exact absurd rfl (other limit)
    | _ => rfl
  unfold require
  split
  · rfl
  · simp [ErrorKind.among, ErrorKind.cut, report, notCut]

/-! ## Expressions -/

theorem typeBranches_cuts (consistent : s.vars.Consistent) (earlier : List Name)
    (joined : Option Name) (branches : List Branch) :
    cuts (g.typeBranches s earlier joined branches).findings =
      branches.flatMap fun branch => cuts (g.partOutcome s (.ofBranch branch)).findings := by
  induction branches generalizing earlier joined with
  | nil => rfl
  | cons branch rest ih =>
    simp only [cuts_eq] at ih
    rw [typeBranches_cons consistent]
    simp [ih]

/-- **The limit is reported in the parts of an expression**, not by its rule. -/
theorem infer_cuts (consistent : s.vars.Consistent) (line : Nat) (form : Form) :
    cuts (g.infer s line form).findings =
      form.parts.flatMap fun part => cuts (g.partOutcome s part).findings := by
  have restored := fun e => typeExpr_state (g := g) consistent e
  have plain : ∀ e, g.partOutcome s (.plain e) = g.typeExpr s e := fun _ => rfl
  cases form with
  | dispatch | staticDispatch | block =>
    simp [infer, restored, typeItems_eq consistent, Form.parts, plain, List.flatMap_map]
  | case scrutinee branches =>
    have inBranches := typeBranches_cuts (g := g) consistent [] none branches
    rw [cuts_eq] at inBranches
    simp [infer, restored, inBranches, Form.parts, plain, List.flatMap_map]
  | letIn =>
    simp [infer, restored, Form.parts, partOutcome]
    rfl
  | _ => simp [infer, restored, Form.parts, plain, Inference.leaf]

/-! ## Features -/

/-- The limit is reported in the initializer or body of a feature. -/
theorem typeFeature_cuts (g : Setting) (s : CheckState) (f : Feature) :
    cuts (g.typeFeature s f).findings =
      cuts (g.typeExpr (g.featureState s f) f.root).findings := by
  cases f with
  | attr a => simp [typeFeature, typeAttribute, featureState, Feature.root]
  | method m =>
    simp [typeFeature, typeMethod, featureState, Feature.root, ErrorKind.among_bindFormals]

end Setting

/-! ## Runs -/

namespace Program

/-- **The limit is reported in the initializers and bodies of features**, class by class. -/
theorem typeIn_cuts (p : Program) (h : Hierarchy) (m : Nat) :
    cuts (p.typeIn h m).findings =
      p.classes.flatMap fun c => c.features.flatMap fun f =>
        cuts ((setting h m c).typeExpr ((setting h m c).featureState (classState h c) f)
          f.root).findings := by
  have features : ∀ c f, ErrorKind.cut.among (outcome h m c f).findings =
      cuts ((setting h m c).typeExpr ((setting h m c).featureState (classState h c) f)
        f.root).findings :=
    fun c f => Setting.typeFeature_cuts (setting h m c) (classState h c) f
  rw [typeIn_findings, cuts_eq, ErrorKind.among_append, ErrorKind.among_build, List.nil_append,
    ErrorKind.among_flatMap]
  simp only [classFindings, ErrorKind.among_append, ErrorKind.among_ofClass, List.nil_append,
    ErrorKind.among_flatMap, features]

end Program

end SelfTyped
