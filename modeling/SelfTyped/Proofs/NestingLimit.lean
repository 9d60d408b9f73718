/-
SelfTyped.Proofs.NestingLimit — the checker stops at the nesting limit, and
nowhere else.

The checker goes down an expression by its own recursion; the nodes of the
expression and their depths are listed by another one, `walk`.  Both go
from an expression to its parts, whatever is wrong with it: the depth of
the checker's state is the depth of the node (`typeExpr_nodes`), so the
nodes that get a type are those not below the limit, and the limit is
reported once for each node at it (`typeExpr_cuts`).
-/
import SelfTyped.Proofs.Annotations
import SelfTyped.Proofs.NestingReports

namespace SelfTyped

/-! ## Walks -/

namespace Expr

/-- A walk goes down only. -/
theorem le_of_mem_walkFrom (e : Expr) {depth : Nat} {node : Nat × Expr}
    (mem : node ∈ e.walkFrom depth) : depth ≤ node.1 := by
  induction e using Expr.parts_induction generalizing depth with
  | step line form ih =>
    rw [walkFrom, Form.walkBelow_eq, List.mem_cons, List.mem_flatMap] at mem
    rcases mem with rfl | ⟨part, hpart, below⟩
    · exact Nat.le_refl depth
    · have := ih part hpart below
      omega

/-- Where a walk starts shows in the depths only. -/
theorem walkFrom_nodes (e : Expr) (depth depth' : Nat) :
    (e.walkFrom depth).map Prod.snd = (e.walkFrom depth').map Prod.snd := by
  induction e using Expr.parts_induction generalizing depth depth' with
  | step line form ih =>
    rw [walkFrom, walkFrom, Form.walkBelow_eq, Form.walkBelow_eq, List.map_cons, List.map_cons,
      List.map_flatMap, List.map_flatMap]
    congr 1
    exact List.flatMap_congr fun part mem => ih part mem (depth + 1) (depth' + 1)

theorem walkBelow_nodes (form : Form) (depth depth' : Nat) :
    (form.walkBelow depth).map Prod.snd = (form.walkBelow depth').map Prod.snd := by
  rw [Form.walkBelow_eq, Form.walkBelow_eq, List.map_flatMap, List.map_flatMap]
  exact List.flatMap_congr fun part _ => part.expr.walkFrom_nodes depth depth'

theorem lt_of_mem_walkBelow {form : Form} {depth : Nat} {node : Nat × Expr}
    (mem : node ∈ form.walkBelow (depth + 1)) : depth < node.1 := by
  rw [Form.walkBelow_eq, List.mem_flatMap] at mem
  obtain ⟨part, _, below⟩ := mem
  exact part.expr.le_of_mem_walkFrom below

/-- **A walk visits the nodes that paths lead to**, and a node's depth is the length of the
path. -/
theorem mem_walkFrom_iff {e node : Expr} {depth d : Nat} :
    (d, node) ∈ e.walkFrom depth ↔
      ∃ path binders, e.at? path = some (binders, node) ∧ d = depth + path.length := by
  induction e using Expr.parts_induction generalizing depth with
  | step line form ih =>
    rw [walkFrom, Form.walkBelow_eq, List.mem_cons, List.mem_flatMap]
    constructor
    · rintro (here | ⟨part, mem, below⟩)
      · obtain ⟨rfl, rfl⟩ := Prod.mk.injEq .. ▸ here
        exact ⟨[], [], rfl, rfl⟩
      · obtain ⟨path, inner, found, rfl⟩ := (ih part mem).mp below
        obtain ⟨i, hi⟩ := List.mem_iff_getElem?.mp mem
        refine ⟨i :: path, _, Expr.at?_cons.mpr ⟨part, inner, hi, found, rfl⟩, ?_⟩
        rw [List.length_cons]
        omega
    · rintro ⟨path, binders, found, rfl⟩
      cases path with
      | nil =>
        rw [Expr.at?, Option.some.injEq, Prod.mk.injEq] at found
        exact Or.inl (by rw [← found.2]; rfl)
      | cons i path =>
        obtain ⟨part, inner, hi, below, rfl⟩ := Expr.at?_cons.mp found
        have mem := List.mem_of_getElem? hi
        refine Or.inr ⟨part, mem, (ih part mem).mpr ⟨path, inner, below, ?_⟩⟩
        rw [List.length_cons]
        omega

end Expr

/-! ## States on the way to a node -/

namespace CheckState

variable {s : CheckState}

/-- Opens a scope for each of some variables. -/
def enterAll (s : CheckState) : List (Name × Name) → CheckState
  | [] => s
  | (name, type) :: rest => (s.enterWith name type).enterAll rest

/-- The state some levels further down, in the scopes of some variables. -/
def inside (s : CheckState) (binders : List (Name × Name)) (levels : Nat) : CheckState :=
  ⟨(s.enterAll binders).vars, s.depth + levels⟩

theorem enterWith_deeper (s : CheckState) (name type : Name) :
    s.deeper.enterWith name type = (s.enterWith name type).deeper := by
  unfold enterWith
  split <;> rfl

theorem enterAll_deeper (s : CheckState) (binders : List (Name × Name)) :
    s.deeper.enterAll binders = (s.enterAll binders).deeper := by
  induction binders generalizing s with
  | nil => rfl
  | cons first rest ih => rw [enterAll, enterAll, enterWith_deeper, ih]

/-- The first step on the way down. -/
theorem inside_under (s : CheckState) (binder : Binder) (inner : List (Name × Name))
    (levels : Nat) :
    (s.deeper.under binder).inside inner levels =
      s.inside (binder.toList ++ inner) (levels + 1) := by
  have entered : (s.deeper.under binder).depth = s.depth + 1 := by simp
  rw [inside, entered, inside, Nat.add_assoc, Nat.add_comm 1 levels]
  match binder with
  | none =>
    change CheckState.mk (s.deeper.enterAll inner).vars _ = _
    rw [enterAll_deeper]
    rfl
  | some (name, type) =>
    rw [under_some, enterWith_deeper, enterAll_deeper]
    rfl

/-- A part is checked one level deeper, in consistent scopes if the expression is. -/
theorem under_deeper (consistent : s.vars.Consistent) (binder : Binder) :
    (s.deeper.under binder).vars.Consistent ∧ (s.deeper.under binder).depth = s.depth + 1 :=
  ⟨consistent_under (s := s.deeper) consistent binder, under_depth _ _⟩

end CheckState

namespace Setting

variable {g : Setting} {s : CheckState} {e : Expr} {path : List Nat}

/-! ## Types in pre-order -/

theorem typeExpr_of_eq (limit : s.depth = g.maxDepth) (e : Expr) :
    g.typeExpr s e = g.cutOff s e := by
  obtain ⟨line, form⟩ := e
  rw [typeExpr, if_pos (Nat.le_of_eq limit.symm)]

/-- Above the limit a node is listed before the nodes of its parts. -/
theorem typeExpr_flatten (deep : s.depth < g.maxDepth) (consistent : s.vars.Consistent)
    (line : Nat) (form : Form) :
    (g.typeExpr s ⟨line, form⟩).node.flatten =
      (⟨line, form⟩, some (g.infer s.deeper line form).type) ::
        form.parts.flatMap fun part => (g.partOutcome s.deeper part).node.flatten := by
  have inside : s.deeper.vars.Consistent := consistent
  rw [typeExpr_of_lt deep, Inference.finish, Typed.flatten, Typed.flattenAll_eq,
    infer_below inside, List.flatMap_map]

/-- **A node has a type if and only if it is not below the limit.** -/
theorem typeExpr_nodes (consistent : s.vars.Consistent) (shallow : s.depth ≤ g.maxDepth)
    (e : Expr) :
    (g.typeExpr s e).node.flatten.map (fun (e, type) => (e, type.isSome)) =
      (e.walkFrom s.depth).map fun (depth, e) => (e, decide (depth ≤ g.maxDepth)) := by
  induction e using Expr.parts_induction generalizing s with
  | step line form ih =>
    rcases Nat.lt_or_eq_of_le shallow with deep | limit
    · have parts : ∀ part ∈ form.parts,
          (g.partOutcome s.deeper part).node.flatten.map (fun (e, type) => (e, type.isSome)) =
            (part.expr.walkFrom (s.depth + 1)).map
              fun (depth, e) => (e, decide (depth ≤ g.maxDepth)) := by
        intro part mem
        obtain ⟨inside, depth⟩ := CheckState.under_deeper consistent part.binder
        have outcome := ih part mem inside (by omega)
        rw [depth] at outcome
        exact outcome
      rw [typeExpr_flatten deep consistent, Expr.walkFrom, Form.walkBelow_eq]
      simp only [List.map_cons, List.map_flatMap, Option.isSome_some, decide_eq_true shallow]
      congr 1
      exact List.flatMap_congr parts
    · -- at the limit the nodes below are listed without a type, and the walk finds them deeper
      have below : (form.walkBelow 1).map (fun (_, e) => (e, false)) =
          (form.walkBelow (s.depth + 1)).map
            fun (depth, e) => (e, decide (depth ≤ g.maxDepth)) := by
        have cutOff : ∀ node ∈ form.walkBelow (s.depth + 1),
            (node.2, decide (node.1 ≤ g.maxDepth)) = (node.2, false) := by
          intro node mem
          have := Expr.lt_of_mem_walkBelow mem
          rw [decide_eq_false (by omega)]
        have nodes := congrArg (List.map fun e => (e, false))
          (Expr.walkBelow_nodes form 1 (s.depth + 1))
        rw [List.map_map, List.map_map] at nodes
        exact nodes.trans (List.map_congr_left cutOff).symm
      rw [typeExpr_of_eq limit, cutOff, Typed.flatten, Expr.walkFrom, List.map_cons, List.map_cons,
        List.map_map, ← below]
      simp only [decide_eq_true shallow]
      rfl

/-! ## Types by path -/

theorem typeExpr_node_source (g : Setting) (s : CheckState) (e : Expr) :
    (g.typeExpr s e).node.source = e := by
  obtain ⟨line, form⟩ := e
  rw [typeExpr]
  split <;> rfl

/-- The checker comes to a node in the state that the way to it determines. -/
theorem typeExpr_inside (consistent : s.vars.Consistent) {node : Expr}
    {binders : List (Name × Name)} (found : e.at? path = some (binders, node))
    (shallow : s.depth + path.length ≤ g.maxDepth) :
    (s.inside binders path.length).vars.Consistent ∧
      (g.typeExpr s e).node.sub? path =
        some (g.typeExpr (s.inside binders path.length) node).node := by
  induction path generalizing e s binders with
  | nil =>
    rw [Expr.at?, Option.some.injEq, Prod.mk.injEq] at found
    obtain ⟨rfl, rfl⟩ := found
    exact ⟨consistent, rfl⟩
  | cons i path ih =>
    obtain ⟨line, form⟩ := e
    obtain ⟨part, inner, hpart, below, rfl⟩ := Expr.at?_cons.mp found
    rw [List.length_cons] at shallow
    obtain ⟨consistent', depth⟩ := CheckState.under_deeper consistent part.binder
    rw [typeExpr_sub?_cons (by omega) consistent hpart, List.length_cons,
      ← CheckState.inside_under]
    exact ih consistent' below (by omega)

/-- What is recorded under a path is for the node there, which is not below the limit. -/
theorem typeExpr_sub?_source (consistent : s.vars.Consistent) (shallow : s.depth ≤ g.maxDepth)
    {n : Typed} (recorded : (g.typeExpr s e).node.sub? path = some n) :
    (∃ binders, e.at? path = some (binders, n.source)) ∧
      s.depth + path.length ≤ g.maxDepth := by
  induction path generalizing e s with
  | nil =>
    rw [Typed.sub?, Option.some.injEq] at recorded
    rw [← recorded, typeExpr_node_source]
    exact ⟨⟨[], rfl⟩, shallow⟩
  | cons i path ih =>
    obtain ⟨line, form⟩ := e
    rcases Nat.lt_or_eq_of_le shallow with deep | limit
    · cases hpart : form.parts[i]? with
      | none =>
        have inside : s.deeper.vars.Consistent := consistent
        rw [typeExpr_of_lt deep, Typed.sub?, Inference.finish, Typed.parts, infer_below inside,
          List.getElem?_map, hpart] at recorded
        exact absurd recorded (by simp)
      | some part =>
        rw [typeExpr_sub?_cons deep consistent hpart] at recorded
        obtain ⟨inside, depth⟩ := CheckState.under_deeper consistent part.binder
        obtain ⟨⟨inner, below⟩, within⟩ := ih inside (by omega) recorded
        refine ⟨⟨_, Expr.at?_cons.mpr ⟨part, inner, hpart, below, rfl⟩⟩, ?_⟩
        rw [List.length_cons]
        omega
    · rw [typeExpr_of_eq limit] at recorded
      exact absurd recorded (by simp [cutOff, Typed.sub?, Typed.parts])

/-! ## Reports -/

/-- **The limit is reported for the nodes at it**, one by one. -/
theorem typeExpr_cuts (consistent : s.vars.Consistent) (shallow : s.depth ≤ g.maxDepth)
    (e : Expr) :
    cuts (g.typeExpr s e).findings =
      ((e.walkFrom s.depth).filter fun (depth, _) => depth = g.maxDepth).map
        fun (_, e) => ⟨⟨g.current.file, e.line⟩, .nestingTooDeep g.maxDepth⟩ := by
  induction e using Expr.parts_induction generalizing s with
  | step line form ih =>
    rcases Nat.lt_or_eq_of_le shallow with deep | limit
    · have parts : ∀ part ∈ form.parts, cuts (g.partOutcome s.deeper part).findings =
          ((part.expr.walkFrom (s.depth + 1)).filter fun (depth, _) => depth = g.maxDepth).map
            fun (_, e) => ⟨⟨g.current.file, e.line⟩, .nestingTooDeep g.maxDepth⟩ := by
        intro part mem
        obtain ⟨inside, depth⟩ := CheckState.under_deeper consistent part.binder
        have outcome := ih part mem inside (by omega)
        rw [depth] at outcome
        exact outcome
      have consistent : s.deeper.vars.Consistent := consistent
      have here : ¬ s.depth = g.maxDepth := by omega
      rw [typeExpr_of_lt deep, Inference.finish, infer_cuts consistent, Expr.walkFrom,
        Form.walkBelow_eq, List.filter_cons_of_neg (by simpa using here), List.filter_flatMap,
        List.map_flatMap]
      exact List.flatMap_congr parts
    · have below : (form.walkBelow (s.depth + 1)).filter
          (fun (depth, _) => depth = g.maxDepth) = [] := by
        rw [List.filter_eq_nil_iff]
        intro node mem
        have := Expr.lt_of_mem_walkBelow mem
        simp only [decide_eq_true_iff]
        omega
      rw [typeExpr_of_eq limit, Expr.walkFrom, List.filter_cons_of_pos (by simpa using limit),
        below]
      rfl

end Setting

/-! ## Runs -/

namespace Program

variable {p : Program} {h : Hierarchy} {m i j : Nat} {c : Class} {f : Feature} {path : List Nat}

/-- The nodes of all features of a program in pre-order, each with its depth in its feature. -/
def nodes (p : Program) : List (Nat × Expr) :=
  p.classes.flatMap fun c => c.features.flatMap fun f => f.root.walk

/-- The state in which the initializer or body of a feature is checked. -/
def rootState (h : Hierarchy) (m : Nat) (c : Class) (f : Feature) : CheckState :=
  (setting h m c).featureState (classState h c) f

theorem rootState_consistent (h : Hierarchy) (m : Nat) (c : Class) (f : Feature) :
    (rootState h m c f).vars.Consistent :=
  (Setting.featureState_agrees (classState_agrees h c) f).consistent

theorem rootState_depth (h : Hierarchy) (m : Nat) (c : Class) (f : Feature) :
    (rootState h m c f).depth = 0 :=
  Setting.featureState_depth (classState_agrees h c) f

theorem outcome_node (h : Hierarchy) (m : Nat) (c : Class) (f : Feature) :
    (outcome h m c f).node = ((setting h m c).typeExpr (rootState h m c f) f.root).node :=
  Setting.typeFeature_node _ _ f

/-- Annotates the expressions of the class with number `i`, as the checker goes along. -/
def recordClass? (h : Hierarchy) (m : Nat) (table : TypeTable) (i : Nat) (c : Class) :
    Option TypeTable :=
  table.through? (fun table j f =>
    (setting h m c).record? (rootState h m c f) [i, j] table f.root) 0 c.features

/-- The table of a checker that annotates expressions as it goes along, unless it annotates one
twice. -/
def record? (p : Program) (h : Hierarchy) (m : Nat) : Option TypeTable :=
  TypeTable.empty.through? (recordClass? h m) 0 p.classes

theorem recordClass?_eq (h : Hierarchy) (m : Nat) (table : TypeTable) (i : Nat) (c : Class) :
    recordClass? h m table i c =
      table.annotateAll? ((Annotations.ofItems
        (fun f => (outcome h m c f).node.annotations) 0 c.features).below [i]) := by
  refine TypeTable.through?_eq (fun f _ table j => ?_) table 0
  rw [Setting.record?_eq (rootState_consistent h m c f), outcome_node]
  rfl

/-- **The annotations of a run are listed in the order in which the checker makes them.** -/
theorem record?_eq (p : Program) (h : Hierarchy) (m : Nat) :
    p.record? h m = (p.typeIn h m).table? := by
  have classes : ∀ c ∈ p.classes, ∀ (table : TypeTable) i,
      recordClass? h m table i c = table.annotateAll? ((Annotations.ofItems
        (fun f => (outcome h m c f).node.annotations) 0 c.features).below ([] ++ [i])) :=
    fun c _ table i => recordClass?_eq h m table i c
  rw [record?, TypeTable.through?_eq classes, Annotations.below_nil, Analysis.table?,
    Analysis.annotations, typeIn_classes, Annotations.ofItems_map]
  simp only [Annotations.ofItems_map]

/-- What holds of the nesting limit in the analysis of a program.  The depth of a node is the
length of the path that leads to it from the root of its feature. -/
structure NestingLaws (p : Program) (m : Nat) (a : Analysis) : Prop where
  /-- A node is annotated if and only if it is not below the limit. -/
  annotated : ∀ {i j : Nat} {c : Class} {f : Feature} {path : List Nat}
    {binders : List (Name × Name)} {e : Expr}, p.classes[i]? = some c →
    c.features[j]? = some f → f.root.at? path = some (binders, e) →
    ((a.recordedType? i j path).isSome = true ↔ path.length ≤ m)
  /-- A node at the limit has type `Object`. -/
  atLimit : ∀ {i j : Nat} {c : Class} {f : Feature} {path : List Nat}
    {binders : List (Name × Name)} {e : Expr}, p.classes[i]? = some c →
    c.features[j]? = some f → f.root.at? path = some (binders, e) → path.length = m →
    a.recordedType? i j path = some Known.object
  /-- Every annotation is of the node at its address. -/
  addresses : ∀ {address : Address} {x : Annotation}, (address, x) ∈ a.annotations →
    ∃ i c j f path binders, address = i :: j :: path ∧ p.classes[i]? = some c ∧
      c.features[j]? = some f ∧ f.root.at? path = some (binders, x.source)
  /-- The checker annotates a node when it comes back from it. -/
  returns : p.record? a.hierarchy m = a.table?
  /-- No node is annotated twice. -/
  once : ∃ table, a.table? = some table ∧
    (∀ i j path, table.type? (i :: j :: path) = a.recordedType? i j path) ∧
    table.size = a.typeCount
  /-- A walk gives a node the depth that it has. -/
  depths : ∀ c ∈ p.classes, ∀ f ∈ c.features, ∀ {depth : Nat} {e : Expr},
    (depth, e) ∈ f.root.walk ↔
      ∃ path binders, f.root.at? path = some (binders, e) ∧ depth = path.length
  count : a.typeCount = (p.nodes.filter fun (depth, _) => depth ≤ m).length
  /-- In pre-order, the nodes with a type are those that a walk visits at or above the limit. -/
  preorder : (a.features.flatMap TypedFeature.nodes).map (fun (e, type) => (e, type.isSome)) =
    p.nodes.map fun (depth, e) => (e, decide (depth ≤ m))
  /-- The limit is reported once for each node at the limit, at the line of the node. -/
  reports : cuts a.findings =
    p.classes.flatMap fun c => c.features.flatMap fun f =>
      (f.root.walk.filter fun (depth, _) => depth = m).map
        fun (_, e) => ⟨⟨c.file, e.line⟩, .nestingTooDeep m⟩

theorem typeIn_preorder (p : Program) (h : Hierarchy) (m : Nat) :
    ((p.typeIn h m).features.flatMap TypedFeature.nodes).map (fun (e, type) => (e, type.isSome)) =
      p.nodes.map fun (depth, e) => (e, decide (depth ≤ m)) := by
  have feature : ∀ c f, (outcome h m c f).node.flatten.map (fun (e, type) => (e, type.isSome)) =
      f.root.walk.map fun (depth, e) => (e, decide (depth ≤ m)) := by
    intro c f
    have atRoot := rootState_depth h m c f
    rw [outcome_node, Setting.typeExpr_nodes (rootState_consistent h m c f) (by omega), atRoot]
    rfl
  simp only [Analysis.features, typeIn_classes, nodes, TypedFeature.nodes, List.flatMap_map,
    List.map_flatMap, List.flatMap_assoc, feature]

theorem typeIn_typeCount (p : Program) (h : Hierarchy) (m : Nat) :
    (p.typeIn h m).typeCount = (p.nodes.filter fun (depth, _) => depth ≤ m).length := by
  have lists := congrArg (fun l => (l.filter Prod.snd).length) (typeIn_preorder p h m)
  unfold Analysis.typeCount
  simpa [List.filter_map, Function.comp_def] using lists

/-- What is recorded in a feature is the result of checking its initializer or body. -/
theorem typeIn_sub? (hc : p.classes[i]? = some c) (hf : c.features[j]? = some f)
    (path : List Nat) :
    (p.typeIn h m).node? i j path =
      ((setting h m c).typeExpr (rootState h m c f) f.root).node.sub? path := by
  rw [typeIn_nodes, hc, Option.bind_some, hf, Option.bind_some, outcome_node]

/-- The results that a run records are for the nodes at their places, down to the limit. -/
theorem typeIn_source {n : Typed} (recorded : (p.typeIn h m).node? i j path = some n) :
    ∃ c f binders, p.classes[i]? = some c ∧ c.features[j]? = some f ∧
      f.root.at? path = some (binders, n.source) ∧ path.length ≤ m := by
  have inFeature := recorded
  rw [typeIn_nodes, Option.bind_eq_some_iff] at inFeature
  obtain ⟨c, hc, inFeature⟩ := inFeature
  obtain ⟨f, hf, -⟩ := Option.bind_eq_some_iff.mp inFeature
  have atRoot := rootState_depth h m c f
  rw [typeIn_sub? hc hf] at recorded
  obtain ⟨⟨binders, found⟩, within⟩ := Setting.typeExpr_sub?_source (g := setting h m c)
    (rootState_consistent h m c f) (by omega) recorded
  rw [atRoot, Nat.zero_add] at within
  exact ⟨c, f, binders, hc, hf, found, within⟩

/-- Every node down to the limit has a result, which at the limit is `Object`. -/
theorem typeIn_reaches {binders : List (Name × Name)} {e : Expr} (hc : p.classes[i]? = some c)
    (hf : c.features[j]? = some f) (he : f.root.at? path = some (binders, e))
    (within : path.length ≤ m) :
    ∃ n, (p.typeIn h m).node? i j path = some n ∧ (path.length = m → n.type = Known.object) := by
  have atRoot := rootState_depth h m c f
  obtain ⟨-, recorded⟩ := Setting.typeExpr_inside (g := setting h m c)
    (rootState_consistent h m c f) he (by rw [atRoot, Nat.zero_add]; exact within)
  rw [← typeIn_sub? hc hf] at recorded
  refine ⟨_, recorded, fun limit => ?_⟩
  rw [Setting.typeExpr_of_eq (by rw [CheckState.inside, atRoot, Nat.zero_add]; exact limit)]
  rfl

/-- **The cut at the nesting limit is exact.**  The analysis of a program with a hierarchy annotates
every node down to the limit exactly once and no other node; nodes at the limit have type `Object`
and are reported, each once and at its line, and the limit is not reported elsewhere. -/
theorem nesting_exact (built : Hierarchy.build p = .ok h) (m : Nat) :
    ∃ a, p.analyse m = .ok a ∧ NestingLaws p m a := by
  refine ⟨_, analyse_of_build built, ?_⟩
  constructor
  · intro i j c f path binders e hc hf he
    rw [Analysis.recordedType?, Option.isSome_map, Option.isSome_iff_exists]
    constructor
    · rintro ⟨n, recorded⟩
      obtain ⟨_, _, _, _, _, _, within⟩ := typeIn_source recorded
      exact within
    · intro within
      obtain ⟨n, recorded, _⟩ := typeIn_reaches (h := h) hc hf he within
      exact ⟨n, recorded⟩
  · intro i j c f path binders e hc hf he limit
    obtain ⟨n, recorded, object⟩ := typeIn_reaches (h := h) hc hf he (Nat.le_of_eq limit)
    rw [Analysis.recordedType?, recorded, Option.map_some, object limit]
  · intro address x mem
    obtain ⟨i, j, path, rfl, found⟩ := Analysis.mem_annotations.mp mem
    obtain ⟨n, recorded, rfl⟩ := Option.map_eq_some_iff.mp found
    obtain ⟨c, f, binders, hc, hf, he, _⟩ := typeIn_source recorded
    exact ⟨i, c, j, f, path, binders, rfl, hc, hf, he⟩
  · exact record?_eq p h m
  · exact (p.typeIn h m).table_exact
  · intro c _ f _ depth e
    rw [Expr.walk, Expr.mem_walkFrom_iff]
    simp only [Nat.zero_add]
  · exact typeIn_typeCount p h m
  · exact typeIn_preorder p h m
  · rw [typeIn_cuts]
    refine List.flatMap_congr fun c _ => List.flatMap_congr fun f _ => ?_
    have atRoot := rootState_depth h m c f
    have reports := Setting.typeExpr_cuts (g := setting h m c) (rootState_consistent h m c f)
      (by omega) f.root
    rw [atRoot] at reports
    exact reports

/-- A body with seven nodes, two of them at depth 2 and two below. -/
def nestedBody : Expr :=
  ⟨3, .binary .equal ⟨3, .isVoid ⟨4, .isVoid ⟨4, .int 1⟩⟩⟩
    ⟨5, .isVoid ⟨6, .complement ⟨6, .bool true⟩⟩⟩⟩

/-- A class with a method that has the body `nestedBody`. -/
def classWithNesting : Class :=
  ⟨1, "Main", "Object", "deep.cl", [.method ⟨2, "main", [], "Bool", nestedBody⟩]⟩

/-- With the limit 2 the upper five nodes of `nestedBody` are annotated, and the limit is reported
twice. -/
theorem nesting_exact_two_cuts :
    Hierarchy.build ⟨[classWithNesting]⟩ = .ok (declared ⟨[classWithNesting]⟩) ∧
      ∃ a, analyse ⟨[classWithNesting]⟩ 2 = .ok a ∧
        (∃ table, a.table? = some table ∧ table.size = 5) ∧
        a.recordedType? 0 0 [0, 0] = some "Object" ∧
        (a.recordedType? 0 0 [0, 0, 0]).isSome = false ∧
        cuts a.findings = [⟨⟨"deep.cl", 4⟩, .nestingTooDeep 2⟩,
          ⟨⟨"deep.cl", 6⟩, .nestingTooDeep 2⟩] := by
  have built : Hierarchy.build ⟨[classWithNesting]⟩ = .ok (declared ⟨[classWithNesting]⟩) := rfl
  obtain ⟨a, analysed, laws⟩ := nesting_exact built 2
  have hc : (Program.mk [classWithNesting]).classes[0]? = some classWithNesting := rfl
  have hf : classWithNesting.features[0]? =
      some (.method ⟨2, "main", [], "Bool", nestedBody⟩) := rfl
  have cutNode : nestedBody.at? [0, 0] = some ([], ⟨4, .isVoid ⟨4, .int 1⟩⟩) := rfl
  have below : nestedBody.at? [0, 0, 0] = some ([], ⟨4, .int 1⟩) := rfl
  obtain ⟨table, filled, _, size⟩ := laws.once
  refine ⟨built, a, analysed, ⟨table, filled, size.trans laws.count⟩,
    laws.atLimit hc hf cutNode rfl, ?_,
    laws.reports⟩
  rw [Bool.eq_false_iff, ne_eq, laws.annotated hc hf below]
  decide

end Program

end SelfTyped
