/-
SelfTyped.Proofs.SelfMisuses — where `self` is reported to be declared or
assigned to.

Five constructs name a variable: attributes, formal parameters, `let`,
branches and assignments.  Each of them has an error of its own for the
name `self` (`TypeError.isMisuse`).  `Expr.misuses` and `Feature.misuses`
read off the program text which errors are due, and `typeIn_misuses` says
that these are reported, one for one: whatever else is wrong with such a
construct takes nothing away, and no other rule reports a misuse.

The order is not that of the text.  A `let` is reported after its
initializer and before its body, an assignment after its value, so the two
lists are permutations of each other.
-/
import SelfTyped.Proofs.NestingLimit
import SelfTyped.Proofs.OwnFindings

namespace SelfTyped

/-! ## Misuses in the text -/

/-- The reports of misuses of `self` among findings. -/
def misuseReports (findings : List Finding) : List Finding :=
  findings.filter fun f => f.error.isMisuse

/-- What is to be reported if a name is `self`. -/
def misuseIf (name : Name) (line : Nat) (error : TypeError) : List (Nat × TypeError) :=
  if name = Known.self then [(line, error)] else []

/-- The misuses of `self` by an expression, not by the expressions in it, and their lines. -/
def Expr.misuses : Expr → List (Nat × TypeError)
  | ⟨line, .assign name _⟩ => misuseIf name line .assignToSelf
  | ⟨line, .letIn name _ _ _⟩ => misuseIf name line .selfInLet
  | ⟨_, .case _ branches⟩ => branches.flatMap fun b => misuseIf b.name b.line .selfInCase
  | _ => []

/-- The misuses of `self` by the declaration of a feature. -/
def Feature.misuses : Feature → List (Nat × TypeError)
  | .attr a => misuseIf a.name a.line .selfAttribute
  | .method m => m.formals.flatMap fun f => misuseIf f.name f.line .selfFormal

/-- The misuses of `self` by nodes whose depth is below a limit. -/
def misusesAbove (limit : Nat) (nodes : List (Nat × Expr)) : List (Nat × TypeError) :=
  (nodes.filter fun (depth, _) => depth < limit).flatMap fun (_, e) => e.misuses

/-- The misuses of `self` in a feature: by its declaration, and by the expressions above the nesting
limit `m`. -/
def Feature.allMisuses (m : Nat) (f : Feature) : List (Nat × TypeError) :=
  f.misuses ++ misusesAbove m f.root.walk

/-- The misuses of `self` in a program. -/
def Program.misuses (m : Nat) (p : Program) : List Finding :=
  p.classes.flatMap fun c => c.features.flatMap fun f =>
    (f.allMisuses m).map fun (line, error) => ⟨⟨c.file, line⟩, error⟩

/-! ## Misuses by name -/

@[simp] theorem misuseReports_eq (findings : List Finding) :
    misuseReports findings = ErrorKind.misuse.among findings := rfl

namespace Setting

variable {g : Setting} {s : CheckState} {line : Nat} {name : Name}

/-- Errors at lines of the class. -/
def located (g : Setting) (errors : List (Nat × TypeError)) : List Finding :=
  errors.map fun (line, error) => ⟨⟨g.current.file, line⟩, error⟩

@[simp] theorem located_nil (g : Setting) : g.located [] = [] := rfl

@[simp] theorem located_append (g : Setting) (first second : List (Nat × TypeError)) :
    g.located (first ++ second) = g.located first ++ g.located second :=
  List.map_append

@[simp] theorem located_flatMap {α : Type} (g : Setting) (items : List α)
    (errors : α → List (Nat × TypeError)) :
    g.located (items.flatMap errors) = items.flatMap fun item => g.located (errors item) :=
  List.map_flatMap

/-- A misuse is reported exactly if the name is `self`. -/
@[simp] theorem misuse_among_require {error : TypeError} (due : error.isMisuse = true) :
    ErrorKind.misuse.among (g.require (name != Known.self) line error) =
      g.located (misuseIf name line error) := by
  by_cases isSelf : name = Known.self <;>
    simp [require, report, ErrorKind.among, ErrorKind.misuse, misuseIf, located, isSelf, due]

theorem misuse_checkAssign {vars : Variables} {type : Name} :
    ErrorKind.misuse.among (g.checkAssign vars line name type).2 =
      g.located (misuseIf name line .assignToSelf) :=
  ErrorKind.among_checkAssign.trans (misuse_among_require rfl)

theorem misuse_checkBranch {earlier : List Name} {type : Name} :
    ErrorKind.misuse.among (g.checkBranch line earlier name type) =
      g.located (misuseIf name line .selfInCase) :=
  ErrorKind.among_checkBranch.trans (misuse_among_require rfl)

theorem misuse_checkLet {type : Name} {init : Option Name} :
    ErrorKind.misuse.among (g.checkLet line name type init) =
      g.located (misuseIf name line .selfInLet) :=
  ErrorKind.among_checkLet.trans (misuse_among_require rfl)

/-! ## Expressions -/

theorem branchFindings_misuses (earlier : List Name) (branches : List Branch) :
    misuseReports (g.branchFindings earlier branches) =
      g.located (branches.flatMap fun b => misuseIf b.name b.line .selfInCase) := by
  induction branches generalizing earlier with
  | nil => rfl
  | cons branch rest ih =>
    simp only [misuseReports_eq] at ih ⊢
    rw [branchFindings, ErrorKind.among_append, misuse_checkBranch, ih, List.flatMap_cons,
      located_append]

/-- The rule for an expression reports the misuses by the expression itself. -/
theorem ownFindings_misuses (g : Setting) (s : CheckState) (line : Nat) (form : Form) :
    misuseReports (g.ownFindings s line form) = g.located (Expr.misuses ⟨line, form⟩) := by
  cases form with
  | assign => exact misuse_checkAssign
  | letIn => exact misuse_checkLet
  | case scrutinee branches => exact branchFindings_misuses [] branches
  | _ => simp [ownFindings, Expr.misuses]

/-- **What an expression itself misuses is reported beside what its parts misuse.** -/
theorem infer_misuses (consistent : s.vars.Consistent) (line : Nat) (form : Form) :
    (misuseReports (g.infer s line form).findings).Perm
      (g.located (Expr.misuses ⟨line, form⟩) ++
        form.parts.flatMap fun part => misuseReports (g.partOutcome s part).findings) := by
  have reports := (infer_findings_perm (g := g) consistent line form).filter
    fun f => f.error.isMisuse
  rw [List.filter_append, List.filter_flatMap] at reports
  rw [← ownFindings_misuses g s]
  exact reports

theorem misusesAbove_flatMap {α : Type} (limit : Nat) (items : List α)
    (nodes : α → List (Nat × Expr)) :
    misusesAbove limit (items.flatMap nodes) =
      items.flatMap fun item => misusesAbove limit (nodes item) := by
  simp only [misusesAbove, List.filter_flatMap, List.flatMap_assoc]

/-- **The misuses above the limit are reported**, and no others. -/
theorem typeExpr_misuses (consistent : s.vars.Consistent) (shallow : s.depth ≤ g.maxDepth)
    (e : Expr) :
    (misuseReports (g.typeExpr s e).findings).Perm
      (g.located (misusesAbove g.maxDepth (e.walkFrom s.depth))) := by
  induction e using Expr.parts_induction generalizing s with
  | step line form ih =>
    rcases Nat.lt_or_eq_of_le shallow with deep | limit
    · have parts : ∀ part ∈ form.parts, (misuseReports (g.partOutcome s.deeper part).findings).Perm
          (g.located (misusesAbove g.maxDepth (part.expr.walkFrom (s.depth + 1)))) := by
        intro part mem
        obtain ⟨inside, depth⟩ := CheckState.under_deeper consistent part.binder
        have outcome := ih part mem inside (by omega)
        rw [depth] at outcome
        exact outcome
      have consistent : s.deeper.vars.Consistent := consistent
      have here : misusesAbove g.maxDepth (Expr.walkFrom s.depth ⟨line, form⟩) =
          Expr.misuses ⟨line, form⟩ ++
            form.parts.flatMap fun part =>
              misusesAbove g.maxDepth (part.expr.walkFrom (s.depth + 1)) := by
        rw [Expr.walkFrom, Form.walkBelow_eq, ← misusesAbove_flatMap, misusesAbove,
          List.filter_cons_of_pos (by simpa using deep), List.flatMap_cons]
        rfl
      rw [typeExpr_of_lt deep, Inference.finish, here, located_append]
      refine (infer_misuses consistent line form).trans (List.Perm.append_left _ ?_)
      rw [located, List.map_flatMap]
      exact List.Perm.flatMap_left _ parts
    · -- all nodes are at the limit or below
      have none : misusesAbove g.maxDepth (Expr.walkFrom s.depth ⟨line, form⟩) = [] := by
        rw [misusesAbove, List.filter_eq_nil_iff.mpr]
        · rfl
        · intro node mem
          have := Expr.le_of_mem_walkFrom _ mem
          simp only [decide_eq_true_iff]
          omega
      rw [typeExpr_of_eq limit, none]
      exact List.Perm.refl _

/-! ## Features -/

/-- The misuses in a feature are reported. -/
theorem typeFeature_misuses {Γ : TypeEnv} (agrees : s.vars.Agrees Γ) (root : s.depth = 0)
    (f : Feature) :
    (misuseReports (g.typeFeature s f).findings).Perm (g.located (f.allMisuses g.maxDepth)) := by
  have depth : (g.featureState s f).depth = 0 := (featureState_depth agrees f).trans root
  have consistent : (g.featureState s f).vars.Consistent := featureState_consistent agrees f
  have inside := typeExpr_misuses (g := g) consistent (by omega) f.root
  rw [depth] at inside
  rw [Feature.allMisuses, located_append]
  refine List.Perm.trans (List.Perm.of_eq ?_) (inside.append_left _)
  cases f with
  | attr a =>
    simp [typeFeature, typeAttribute, featureState, Feature.root, Feature.misuses,
      TypeError.isMisuse]
  | method m =>
    simp [typeFeature, typeMethod, featureState, Feature.root, Feature.misuses,
      ErrorKind.among_bindFormals, TypeError.isMisuse]

end Setting

/-! ## Runs -/

/-- **Every misuse of `self` is reported**, each once and at its place, and nothing else is
reported as one. -/
theorem Program.typeIn_misuses (p : Program) (h : Hierarchy) (m : Nat) :
    (misuseReports (p.typeIn h m).findings).Perm (p.misuses m) := by
  rw [typeIn_findings, misuseReports_eq, ErrorKind.among_append, ErrorKind.among_build,
    List.nil_append, ErrorKind.among_flatMap, Program.misuses]
  refine List.Perm.flatMap_left _ fun c _ => ?_
  rw [classFindings, ErrorKind.among_append, ErrorKind.among_ofClass, List.nil_append,
    ErrorKind.among_flatMap]
  refine List.Perm.flatMap_left _ fun f _ => ?_
  exact Setting.typeFeature_misuses (g := setting h m c) (classState_agrees h c) rfl f

end SelfTyped
