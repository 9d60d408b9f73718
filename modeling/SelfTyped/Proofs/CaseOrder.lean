/-
SelfTyped.Proofs.CaseOrder — the branches of a `case` can be put in any
order.

The type of a `case` is the join of the types of its branches, taken from
left to right, and a join does not depend on the order (`joinAll_perm`).
A branch is checked in the state of the `case`, with its own variable
added, so what is recorded in it does not depend on its place either
(`typeExpr_case_perm`, `sub?_branch`).

In a run the `case` is somewhere inside a feature.  The state in which it is
checked is determined by its depth and the variables bound on the way to it
(`typeExpr_inside`), so it is the same after the branches were put in another
order.
-/
import SelfTyped.Proofs.JoinLaws
import SelfTyped.Proofs.Modularity
import SelfTyped.Proofs.NestingLimit

namespace SelfTyped

/-- The result that two paths lead to, one after the other. -/
theorem Typed.sub?_append (node : Typed) (path rest : List Nat) :
    node.sub? (path ++ rest) = (node.sub? path).bind fun inner => inner.sub? rest := by
  induction path generalizing node with
  | nil => rfl
  | cons i path ih =>
    simp only [List.cons_append, Typed.sub?]
    cases node.parts[i]? with
    | none => rfl
    | some part => exact ih part

namespace Setting

variable {g : Setting} {s : CheckState} {line : Nat} {scrutinee : Expr}
  {branches branches' : List Branch}

/-! ## Branches -/

theorem typeBranches_type (consistent : s.vars.Consistent) (earlier : List Name)
    (joined : Option Name) (branches : List Branch) :
    (g.typeBranches s earlier joined branches).type =
      (branches.map fun b => (g.partOutcome s (.ofBranch b)).type).foldl
        (fun joined type => some (g.joinBranch joined type)) joined := by
  induction branches generalizing earlier joined with
  | nil => rfl
  | cons branch rest ih =>
    rw [typeBranches_cons consistent, List.map_cons, List.foldl_cons, ← ih (branch.type :: earlier)]

/-- The type of a `case` is the join of the types of its branches. -/
theorem infer_case_type (consistent : s.vars.Consistent) (line : Nat) (scrutinee : Expr)
    (branches : List Branch) :
    (g.infer s line (.case scrutinee branches)).type =
      (g.joinAll (branches.map fun b => (g.partOutcome s (.ofBranch b)).type)).getD
        Known.object := by
  rw [infer, typeExpr_state consistent, typeBranches_type consistent]
  rfl

/-- **The type of a `case` does not depend on the order of its branches.** -/
theorem typeExpr_case_perm (laws : g.JoinLaws) (consistent : s.vars.Consistent)
    (perm : branches'.Perm branches) :
    (g.typeExpr s ⟨line, .case scrutinee branches'⟩).node.type =
      (g.typeExpr s ⟨line, .case scrutinee branches⟩).node.type := by
  have consistent : s.deeper.vars.Consistent := consistent
  rw [typeExpr_node_type, typeExpr_node_type, typeExpr, typeExpr]
  split
  · rfl
  · change (g.infer s.deeper line _).type = (g.infer s.deeper line _).type
    rw [infer_case_type consistent, infer_case_type consistent]
    rw [joinAll_perm laws (perm.map _)]

/-- What is recorded in a branch does not depend on its place. -/
theorem sub?_branch (consistent : s.vars.Consistent) {k : Nat} {b : Branch}
    (found : branches[k]? = some b) (path : List Nat) :
    (g.typeExpr s ⟨line, .case scrutinee branches⟩).node.sub? ((k + 1) :: path) =
      if s.depth < g.maxDepth then (g.partOutcome s.deeper (.ofBranch b)).node.sub? path
      else none := by
  have part : (Form.case scrutinee branches).parts[k + 1]? = some (.ofBranch b) := by
    simp [Form.parts, found]
  split
  · next deep => exact typeExpr_sub?_cons deep consistent part path
  · next limit =>
    rw [typeExpr, if_pos (by omega)]
    rfl

end Setting

/-! ## Runs -/

namespace Program

variable {p : Program} {h : Hierarchy} {m i j line : Nat} {c : Class} {f : Feature}
  {path : List Nat} {binders : List (Name × Name)} {root : Expr} {scrutinee : Expr}
  {branches branches' : List Branch}

theorem rootState_withRoot (h : Hierarchy) (m : Nat) (c : Class) (j : Nat) (f : Feature)
    (root : Expr) : rootState h m (c.withRoot j root) (f.withRoot root) = rootState h m c f := by
  unfold rootState setting classState
  rw [ofClass_withRoot]
  cases f <;> rfl

theorem root_withRoot (f : Feature) (root : Expr) : (f.withRoot root).root = root := by
  cases f <;> rfl

/-- What is recorded in a feature with another root is the result of checking this root. -/
theorem typeIn_sub?_withRoot (hc : p.classes[i]? = some c) (hf : c.features[j]? = some f)
    (root : Expr) (path : List Nat) :
    ((p.withRoot i j root).typeIn h m).node? i j path =
      ((setting h m c).typeExpr (rootState h m c f) root).node.sub? path := by
  have hc' : (p.withRoot i j root).classes[i]? = some (c.withRoot j root) := by
    simp [withRoot, hc]
  have hf' : (c.withRoot j root).features[j]? = some (f.withRoot root) := by
    simp [Class.withRoot, hf]
  rw [typeIn_sub? hc' hf', rootState_withRoot, root_withRoot, setting, ofClass_withRoot]
  rfl

/-- The same is recorded at a `case` and in its branches by two analyses that have the branches in
different orders. -/
structure SameInBranches (i j : Nat) (path : List Nat) (branches branches' : List Branch)
    (a a' : Analysis) : Prop where
  /-- The `case` has the same type, or none. -/
  case : a'.recordedType? i j path = a.recordedType? i j path
  /-- Every node of a branch has the same type, or none. -/
  inside : ∀ {k k' : Nat} {b : Branch} (rest : List Nat), branches[k]? = some b →
    branches'[k']? = some b →
    a'.recordedType? i j (path ++ (k' + 1) :: rest) =
      a.recordedType? i j (path ++ (k + 1) :: rest)

/-- Below the limit nothing is recorded. -/
theorem sub?_below_limit (c : Class) (f : Feature) (e : Expr) {path : List Nat}
    (below : m < path.length) :
    ((setting h m c).typeExpr (rootState h m c f) e).node.sub? path = none := by
  rw [Option.eq_none_iff_forall_ne_some]
  intro n recorded
  have atRoot := rootState_depth h m c f
  obtain ⟨-, within⟩ := Setting.typeExpr_sub?_source (g := setting h m c)
    (rootState_consistent h m c f) (by omega) recorded
  rw [atRoot, Nat.zero_add] at within
  have limit : (setting h m c).maxDepth = m := rfl
  omega

/-- **A `case` does not depend on the order of its branches.** -/
theorem typeIn_case_perm (laws : (setting h m c).JoinLaws) (hc : p.classes[i]? = some c)
    (hf : c.features[j]? = some f)
    (found : f.root.at? path = some (binders, ⟨line, .case scrutinee branches⟩))
    (found' : root.at? path = some (binders, ⟨line, .case scrutinee branches'⟩))
    (perm : branches'.Perm branches) :
    SameInBranches i j path branches branches' (p.typeIn h m)
      ((p.withRoot i j root).typeIn h m) := by
  by_cases shallow : path.length ≤ m
  · have atRoot := rootState_depth h m c f
    have within : (rootState h m c f).depth + path.length ≤ (setting h m c).maxDepth := by
      rw [atRoot, Nat.zero_add]
      exact shallow
    obtain ⟨consistent, recorded⟩ :=
      Setting.typeExpr_inside (rootState_consistent h m c f) found within
    obtain ⟨-, recorded'⟩ := Setting.typeExpr_inside (rootState_consistent h m c f) found' within
    constructor
    · simp only [Analysis.recordedType?, typeIn_sub? hc hf, typeIn_sub?_withRoot hc hf, recorded,
        recorded', Option.map_some, Setting.typeExpr_case_perm laws consistent perm]
    · intro k k' b rest here there
      simp only [Analysis.recordedType?, typeIn_sub? hc hf, typeIn_sub?_withRoot hc hf,
        Typed.sub?_append, recorded, recorded', Option.bind_some,
        Setting.sub?_branch consistent here, Setting.sub?_branch consistent there]
  · have below : ∀ rest : List Nat, m < (path ++ rest).length := by
      intro rest
      rw [List.length_append]
      omega
    constructor
    · simp only [Analysis.recordedType?, typeIn_sub? hc hf, typeIn_sub?_withRoot hc hf,
        sub?_below_limit c f _ (Nat.lt_of_not_le shallow)]
    · intro k k' b rest _ _
      simp only [Analysis.recordedType?, typeIn_sub? hc hf, typeIn_sub?_withRoot hc hf,
        sub?_below_limit c f _ (below _)]

/-- **Joins form a semilattice, and branches have no order.**  Inside every class of a program with
a hierarchy the join of any two names is idempotent, commutative and associative, and both names
conform to it.  So if the branches of a `case` are put in another order, the analysis records the
same type for the `case` and for every node of its branches. -/
theorem branch_order_irrelevant (built : Hierarchy.build p = .ok h) (hc : p.classes[i]? = some c)
    (m : Nat) :
    (setting h m c).JoinLaws ∧
      ∀ {j line : Nat} {f : Feature} {path : List Nat} {binders : List (Name × Name)}
        {root scrutinee : Expr} {branches branches' : List Branch},
        c.features[j]? = some f →
        f.root.at? path = some (binders, ⟨line, .case scrutinee branches⟩) →
        root.at? path = some (binders, ⟨line, .case scrutinee branches'⟩) →
        branches'.Perm branches →
        ∃ a a', p.analyse m = .ok a ∧ (p.withRoot i j root).analyse m = .ok a' ∧
          SameInBranches i j path branches branches' a a' := by
  have laws : (setting h m c).JoinLaws :=
    Setting.join_laws (setting_proper built (List.mem_of_getElem? hc))
  refine ⟨laws, ?_⟩
  intro j line f path binders root scrutinee branches branches' hf found found' perm
  have built' : Hierarchy.build (p.withRoot i j root) = .ok h := by
    rw [build_withRoot, built]
  exact ⟨_, _, analyse_of_build built, analyse_of_build built',
    typeIn_case_perm laws hc hf found found' perm⟩

/-- A branch with a body of type `SELF_TYPE`, one of type `Main`, and one whose type does not
exist. -/
def threeBranches : List Branch :=
  [⟨4, "x", "Int", ⟨4, .object "self"⟩⟩, ⟨5, "y", "Main", ⟨5, .object "y"⟩⟩,
    ⟨6, "z", "Gone", ⟨6, .object "z"⟩⟩]

/-- The body of a method that returns a `case` over its branches. -/
def caseBody (branches : List Branch) : Expr :=
  ⟨3, .block [⟨3, .case ⟨3, .object "self"⟩ branches⟩]⟩

/-- A class with a method that returns a `case`. -/
def classWithCase : Class :=
  ⟨1, "Main", "IO", "case.cl",
    [.method ⟨2, "main", [], "Object", caseBody threeBranches⟩]⟩

/-- With the branches in reverse order the `case` still has type `Object`, the branch that was the
first still has type `SELF_TYPE`, and joins with `SELF_TYPE` can be regrouped. -/
theorem branch_order_irrelevant_reversed :
    Hierarchy.build ⟨[classWithCase]⟩ = .ok (declared ⟨[classWithCase]⟩) ∧
      (setting (declared ⟨[classWithCase]⟩) 1000 classWithCase).join "SELF_TYPE" "Main" = "Main" ∧
      (setting (declared ⟨[classWithCase]⟩) 1000 classWithCase).JoinLaws ∧
      ∃ a', ((Program.mk [classWithCase]).withRoot 0 0
          (caseBody threeBranches.reverse)).analyse 1000 = .ok a' ∧
        a'.recordedType? 0 0 [0] = some "Object" ∧
        a'.recordedType? 0 0 [0, 3] = some "SELF_TYPE" := by
  have built : Hierarchy.build ⟨[classWithCase]⟩ = .ok (declared ⟨[classWithCase]⟩) := rfl
  have hc : (Program.mk [classWithCase]).classes[0]? = some classWithCase := rfl
  have hf : classWithCase.features[0]? =
      some (.method ⟨2, "main", [], "Object", caseBody threeBranches⟩) := rfl
  have found : ∀ branches, (caseBody branches).at? [0] =
      some ([], ⟨3, .case ⟨3, .object "self"⟩ branches⟩) := fun _ => rfl
  obtain ⟨laws, orders⟩ := branch_order_irrelevant built hc 1000
  obtain ⟨a, a', analysed, analysed', same⟩ :=
    orders hf (found _) (found _) (List.reverse_perm threeBranches)
  have before : a.recordedType? 0 0 [0] = some "Object" ∧
      a.recordedType? 0 0 [0, 1] = some "SELF_TYPE" := by
    cases analysed
    exact ⟨rfl, rfl⟩
  refine ⟨built, rfl, laws, a', analysed', same.case.trans before.1, ?_⟩
  have first : threeBranches[0]? = threeBranches.reverse[2]? := rfl
  exact (same.inside [] rfl first.symm).trans before.2

end Program

end SelfTyped
