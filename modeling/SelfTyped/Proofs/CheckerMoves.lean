/-
SelfTyped.Proofs.CheckerMoves — the checker undoes all its moves.

`CheckState.run` makes a list of moves.  That the moves listed for a class
are the ones of the checker is `typeExpr_run` and `typeFeatures_run`: from
any state whatever, also from one that the checker never comes to, it ends
in the state to which the moves lead.

The states that the checker of a class comes to are then those after the
first few moves of the class (`Program.Reached`).  A possible move keeps
the scopes and their index in agreement (`sound_move`), so they agree in
all these states (`Reached.sound`), and from there the checker comes back
from any expression at all without a trace.  And it always can come back:
a stretch of moves for one expression is possible throughout and leads
nowhere (`closes_moves`).
-/
import SelfTyped.Proofs.NestingLimit
import SelfTyped.Proofs.ScopeStack
import SelfTyped.Typing.Moves

namespace SelfTyped

/-- What is left when a scope is left is sound. -/
theorem Scoped.sound_leave? {α : Type} {s left : Scoped α} (sound : s.Sound)
    (leaves : s.leave? = some left) : left.Sound := by
  have inside : s.inner ≠ [] := by
    intro root
    rw [(Scoped.leave?_eq_none_iff s).mpr root] at leaves
    simp at leaves
  obtain ⟨left', leaves', sound', -⟩ := leaveInOrder?_sound sound inside (List.Perm.refl _)
  rw [leaveInOrder?_names sound inside, leaves, Option.some.injEq] at leaves'
  rw [leaves']
  exact sound'

/-! ## Moves around a part -/

namespace Move

/-- The moves before a part of an expression. -/
def opening : Binder → List Move
  | none => []
  | some (name, type) => .enter :: binding name type

/-- The moves after a part of an expression. -/
def closing : Binder → List Move
  | none => []
  | some _ => [.leave]

end Move

/-- The moves that a part of an expression takes. -/
def Part.moves (limit depth : Nat) (part : Part) : List Move :=
  Move.opening part.binder ++ (part.expr.moves limit depth ++ Move.closing part.binder)

theorem Part.moves_plain (limit depth : Nat) (e : Expr) :
    (Part.plain e).moves limit depth = e.moves limit depth :=
  List.append_nil _

theorem itemMoves_eq (limit depth : Nat) (items : List Expr) :
    itemMoves limit depth items = (items.map Part.plain).flatMap (Part.moves limit depth) := by
  induction items with
  | nil => rfl
  | cons item rest ih => simp [itemMoves, ih, Part.moves_plain]

theorem branchMoves_eq (limit depth : Nat) (branches : List Branch) :
    branchMoves limit depth branches =
      (branches.map Part.ofBranch).flatMap (Part.moves limit depth) := by
  induction branches with
  | nil => rfl
  | cons branch rest ih =>
    obtain ⟨line, name, type, body⟩ := branch
    simp [branchMoves, ih, Part.moves, Move.inScope, Move.opening, Move.closing]

/-- An expression takes the moves of its parts one after the other. -/
theorem Form.moves_eq (limit depth : Nat) (form : Form) :
    form.moves limit depth = form.parts.flatMap (Part.moves limit depth) := by
  cases form with
  | letIn name type init body =>
    simp [Form.moves, Form.parts, Part.moves, Move.inScope, Move.opening, Move.closing]
  | _ => simp [Form.moves, Form.parts, Part.moves_plain, itemMoves_eq, branchMoves_eq]

namespace CheckState

variable {s t u : CheckState} {move : Move} {moves first second inside : List Move}
  {name type : Name} {d : Nat}

/-! ## Runs of moves -/

@[simp] theorem run_nil (s : CheckState) : s.run [] = s := rfl

@[simp] theorem run_cons (s : CheckState) (move : Move) (rest : List Move) :
    s.run (move :: rest) = (s.move move).run rest := rfl

@[simp] theorem run_append (s : CheckState) (first second : List Move) :
    s.run (first ++ second) = (s.run first).run second :=
  List.foldl_append

@[simp] theorem permitsAll_nil (s : CheckState) : s.PermitsAll [] := trivial

@[simp] theorem permitsAll_cons (s : CheckState) (move : Move) (rest : List Move) :
    s.PermitsAll (move :: rest) ↔ s.Permits move ∧ (s.move move).PermitsAll rest := Iff.rfl

@[simp] theorem permitsAll_append (s : CheckState) (first second : List Move) :
    s.PermitsAll (first ++ second) ↔ s.PermitsAll first ∧ (s.run first).PermitsAll second := by
  induction first generalizing s with
  | nil => simp
  | cons move rest ih => simp [ih, and_assoc]

/-- What a state has and every possible move of some sort keeps, is kept by a run of such moves. -/
theorem run_induction {P : CheckState → Prop} (sort : Move → Prop)
    (step : ∀ (s : CheckState) (move : Move), P s → s.Permits move → sort move → P (s.move move))
    (start : P s) (possible : s.PermitsAll moves) (sorted : ∀ move ∈ moves, sort move) :
    P (s.run moves) := by
  induction moves generalizing s with
  | nil => exact start
  | cons move rest ih =>
    refine ih (step s move start possible.1 (sorted move List.mem_cons_self)) possible.2 ?_
    exact fun other mem => sorted other (List.mem_cons_of_mem move mem)

/-- The scopes after a scope was left. -/
theorem permits_leave (possible : s.Permits .leave) :
    s.vars.leave? = some (s.move .leave).vars := by
  obtain ⟨left, leaves⟩ := Option.isSome_iff_exists.mp possible
  simp [CheckState.move, leave, leaves]

/-- A possible move keeps the scopes sound. -/
theorem sound_move (sound : s.vars.Sound) (possible : s.Permits move) :
    (s.move move).vars.Sound := by
  cases move with
  | enter => exact Scoped.sound_enter sound
  | leave => exact Scoped.sound_leave? sound (permits_leave possible)
  | bind name type => exact Scoped.sound_bind sound name type
  | deeper | shallower => exact sound

/-- Possible moves keep the scopes sound. -/
theorem sound_run (sound : s.vars.Sound) (possible : s.PermitsAll moves) :
    (s.run moves).vars.Sound :=
  run_induction (P := fun s => s.vars.Sound) (fun _ => True)
    (fun _ _ sound possible _ => sound_move sound possible) sound possible fun _ _ => trivial

/-! ## Moves that lead nowhere -/

/-- Moves are possible, and lead back to the state in which they start. -/
structure Closes (s : CheckState) (moves : List Move) : Prop where
  permits : s.PermitsAll moves
  returns : s.run moves = s

theorem closes_nil (s : CheckState) : s.Closes [] :=
  ⟨trivial, rfl⟩

theorem closes_append (one : s.Closes first) (two : s.Closes second) :
    s.Closes (first ++ second) where
  permits := by
    rw [permitsAll_append, one.returns]
    exact ⟨one.permits, two.permits⟩
  returns := by rw [run_append, one.returns, two.returns]

theorem closes_flatMap {α : Type} {items : List α} {taken : α → List Move}
    (closes : ∀ item ∈ items, s.Closes (taken item)) : s.Closes (items.flatMap taken) := by
  induction items with
  | nil => exact closes_nil s
  | cons item rest ih =>
    rw [List.flatMap_cons]
    refine closes_append (closes item List.mem_cons_self) (ih fun other mem => ?_)
    exact closes other (List.mem_cons_of_mem item mem)

theorem closes_deeper (inner : s.deeper.Closes moves) :
    s.Closes (.deeper :: (moves ++ [.shallower])) where
  permits := by
    have back : 0 < (s.deeper.run moves).depth := by
      rw [inner.returns]
      exact Nat.succ_pos s.depth
    rw [permitsAll_cons, permitsAll_append]
    exact ⟨trivial, inner.permits, back, trivial⟩
  returns := by
    have entered : s.move .deeper = s.deeper := rfl
    rw [run_cons, run_append, entered, inner.returns]
    rfl

theorem run_binding (s : CheckState) (name type : Name) :
    s.enter.run (Move.binding name type) = s.enterWith name type := by
  unfold Move.binding enterWith
  split <;> rfl

theorem run_opening (s : CheckState) (binder : Binder) :
    s.run (Move.opening binder) = s.under binder := by
  match binder with
  | none => rfl
  | some (name, type) => exact run_binding s name type

theorem permitsAll_opening (s : CheckState) (binder : Binder) :
    s.PermitsAll (Move.opening binder) := by
  match binder with
  | none => trivial
  | some (name, type) =>
    change s.PermitsAll (.enter :: Move.binding name type)
    unfold Move.binding
    split <;> simp [Permits]

/-- A part of an expression leads nowhere if its expression does, in its scope. -/
theorem closes_under (consistent : s.vars.Consistent) {binder : Binder}
    (inner : (s.under binder).Closes inside) :
    s.Closes (Move.opening binder ++ (inside ++ Move.closing binder)) := by
  match binder with
  | none =>
    rw [Move.opening, Move.closing, List.nil_append, List.append_nil]
    exact inner
  | some (name, type) =>
    have left := leave_enterWith consistent name type
    have possible : (s.enterWith name type).vars.leave?.isSome = true := by
      rw [Option.isSome_iff_ne_none, ne_eq, Scoped.leave?_eq_none_iff, enterWith_vars]
      split <;> simp [Scoped.enter, Scoped.bind, Scoped.setCurrent]
    constructor
    · rw [permitsAll_append, permitsAll_append, run_opening, inner.returns]
      exact ⟨permitsAll_opening s _, inner.permits, possible, trivial⟩
    · rw [run_append, run_append, run_opening, inner.returns]
      exact left

/-- **Checking an expression leads nowhere**, and all its moves are possible. -/
theorem closes_moves (consistent : s.vars.Consistent) (limit depth : Nat) (e : Expr) :
    s.Closes (e.moves limit depth) := by
  induction e using Expr.parts_induction generalizing s depth with
  | step line form ih =>
    rw [Expr.moves]
    split
    · exact closes_nil s
    · have consistent : s.deeper.vars.Consistent := consistent
      rw [Form.moves_eq]
      refine closes_deeper (closes_flatMap fun part mem => closes_under consistent ?_)
      exact ih part mem (consistent_under consistent part.binder) (depth + 1)

/-- The first few moves of an expression lead to any node that is not below the limit. -/
theorem moves_inside (consistent : s.vars.Consistent) (limit depth : Nat) {e node : Expr}
    {path : List Nat} {binders : List (Name × Name)}
    (found : e.at? path = some (binders, node)) (shallow : depth + path.length ≤ limit) :
    ∃ before, before <+: e.moves limit depth ∧ s.run before = s.inside binders path.length := by
  induction path generalizing e s depth binders with
  | nil =>
    rw [Expr.at?, Option.some.injEq, Prod.mk.injEq] at found
    exact ⟨[], List.nil_prefix, by rw [← found.1]; rfl⟩
  | cons i path ih =>
    obtain ⟨line, form⟩ := e
    obtain ⟨part, inner, hpart, below, rfl⟩ := Expr.at?_cons.mp found
    rw [List.length_cons] at shallow
    have inside : s.deeper.vars.Consistent := consistent
    obtain ⟨before, ⟨rest, listed⟩, leads⟩ :=
      ih (consistent_under inside part.binder) (depth + 1) below (by omega)
    obtain ⟨ahead, behind, split⟩ := List.append_of_mem (List.mem_of_getElem? hpart)
    -- the parts ahead lead nowhere, so the part is checked in the scope of the expression
    have skipped : s.deeper.Closes (ahead.flatMap (Part.moves limit (depth + 1))) :=
      closes_flatMap fun other _ => closes_under inside
        (closes_moves (consistent_under inside other.binder) _ _ other.expr)
    have entered : s.move .deeper = s.deeper := rfl
    refine ⟨.deeper :: (ahead.flatMap (Part.moves limit (depth + 1)) ++
      (Move.opening part.binder ++ before)), ?_, ?_⟩
    · rw [Expr.moves, if_neg (by omega), Form.moves_eq, split, List.flatMap_append,
        List.flatMap_cons, Part.moves, ← listed]
      simp
    · rw [run_cons, run_append, run_append, entered, skipped.returns, run_opening, leads,
        List.length_cons, inside_under]

/-! ## The moves of the checker -/

/-- Moves lead from a state to another, both at depth `d`. -/
structure Leads (d : Nat) (s : CheckState) (moves : List Move) (t : CheckState) : Prop where
  before : s.depth = d
  run : t = s.run moves
  after : t.depth = d

theorem leads_nil (depth : s.depth = d) : s.Leads d [] s :=
  ⟨depth, rfl, depth⟩

theorem Leads.trans (one : s.Leads d first t) (two : t.Leads d second u) :
    s.Leads d (first ++ second) u where
  before := one.before
  run := by rw [run_append, ← one.run, two.run]
  after := two.after

theorem leads_inScope (depth : s.depth = d) (inner : (s.enterWith name type).Leads d inside t) :
    s.Leads d (Move.inScope name type inside) t.leave where
  before := depth
  run := by
    have entered : s.move .enter = s.enter := rfl
    rw [Move.inScope, run_cons, run_append, run_append, entered, run_binding, ← inner.run]
    rfl
  after := inner.after

theorem leads_deeper (depth : s.depth = d) (inner : s.deeper.Leads (d + 1) moves t) :
    s.Leads d (.deeper :: (moves ++ [.shallower])) t.shallower where
  before := depth
  run := by
    have entered : s.move .deeper = s.deeper := rfl
    rw [run_cons, run_append, entered, ← inner.run]
    rfl
  after := by
    change t.depth - 1 = d
    rw [inner.after, Nat.add_sub_cancel]

end CheckState

namespace Setting

variable {g : Setting} {s : CheckState} {d : Nat} {form : Form} {f : Feature}

/-- From any state at depth `d`, checking `e` makes the moves listed for it. -/
def Moves (g : Setting) (d : Nat) (e : Expr) : Prop :=
  ∀ s : CheckState, s.depth = d →
    s.Leads d (e.moves g.maxDepth d) (g.typeExpr s e).state

theorem typeItems_leads {items : List Expr} (moves : ∀ item ∈ items, g.Moves d item)
    (depth : s.depth = d) :
    s.Leads d (itemMoves g.maxDepth d items) (g.typeItems s items).state := by
  induction items generalizing s with
  | nil => exact CheckState.leads_nil depth
  | cons item rest ih =>
    have first := moves item List.mem_cons_self s depth
    have others := fun other mem => moves other (List.mem_cons_of_mem item mem)
    exact first.trans (ih others first.after)

theorem typeBranches_leads {branches : List Branch} (earlier : List Name) (joined : Option Name)
    (moves : ∀ branch ∈ branches, g.Moves d branch.body) (depth : s.depth = d) :
    s.Leads d (branchMoves g.maxDepth d branches)
      (g.typeBranches s earlier joined branches).state := by
  induction branches generalizing s earlier joined with
  | nil => exact CheckState.leads_nil depth
  | cons branch rest ih =>
    obtain ⟨line, name, type, body⟩ := branch
    have first := CheckState.leads_inScope depth
      (moves _ List.mem_cons_self (s.enterWith name type) (by simpa using depth))
    exact first.trans
      (ih _ _ (fun other mem => moves other (List.mem_cons_of_mem _ mem)) first.after)

theorem infer_leads (moves : ∀ part ∈ form.parts, g.Moves d part.expr) (line : Nat)
    (depth : s.depth = d) :
    s.Leads d (form.moves g.maxDepth d) (g.infer s line form).state := by
  have plain : ∀ e, .plain e ∈ form.parts → g.Moves d e := fun e mem => moves (.plain e) mem
  cases form with
  | dispatch receiver method args | staticDispatch receiver named method args =>
    have first := plain receiver List.mem_cons_self s depth
    refine first.trans (typeItems_leads (fun item mem => ?_) first.after)
    exact plain item (List.mem_cons_of_mem _ (List.mem_map_of_mem mem))
  | case scrutinee branches =>
    have first := plain scrutinee List.mem_cons_self s depth
    refine first.trans (typeBranches_leads [] none (fun branch mem => ?_) first.after)
    exact moves (.ofBranch branch) (List.mem_cons_of_mem _ (List.mem_map_of_mem mem))
  | block items =>
    exact typeItems_leads (fun item mem => plain item (List.mem_map_of_mem mem)) depth
  | letIn name type init body =>
    have first := plain init (by simp [Form.parts]) s depth
    refine first.trans (CheckState.leads_inScope first.after ?_)
    exact moves ⟨some (name, type), body⟩ (by simp [Form.parts]) _ (by simpa using first.after)
  | cond predicate thenArm elseArm =>
    have first := plain predicate (by simp [Form.parts]) s depth
    have second := plain thenArm (by simp [Form.parts]) _ first.after
    exact first.trans (second.trans (plain elseArm (by simp [Form.parts]) _ second.after))
  | loop one two | binary op one two =>
    have first := plain one (by simp [Form.parts]) s depth
    exact first.trans (plain two (by simp [Form.parts]) _ first.after)
  | assign name operand | negate operand | complement operand | isVoid operand =>
    exact plain operand (by simp [Form.parts]) s depth
  | int | bool | string | new | noExpr | object => exact CheckState.leads_nil depth

theorem typeExpr_leads (depth : s.depth = d) (e : Expr) :
    s.Leads d (e.moves g.maxDepth d) (g.typeExpr s e).state := by
  induction e using Expr.parts_induction generalizing s d with
  | step line form ih =>
    rw [typeExpr, Expr.moves, depth]
    split
    · exact CheckState.leads_nil depth
    · refine CheckState.leads_deeper depth (infer_leads (fun part mem t ht => ?_) line ?_)
      · exact ih part mem ht
      · rw [CheckState.deeper_depth, depth]

/-- **The checker makes the moves that are listed for an expression**, whatever state it is in. -/
theorem typeExpr_run (g : Setting) (s : CheckState) (e : Expr) :
    (g.typeExpr s e).state = s.run (e.moves g.maxDepth s.depth) :=
  (typeExpr_leads rfl e).run

/-! ## Features -/

theorem formalMoves_leads (bound : List Name) (formals : List Formal) (depth : s.depth = d) :
    s.Leads d (formalMoves bound formals) (s.run (formalMoves bound formals)) := by
  induction formals generalizing s bound with
  | nil => exact CheckState.leads_nil depth
  | cons f rest ih =>
    rw [formalMoves]
    split
    · exact ih bound depth
    · have later := ih (s := s.bind f.name f.type) (f.name :: bound) depth
      exact ⟨depth, rfl, later.after⟩

theorem permitsAll_formalMoves (bound : List Name) (formals : List Formal) :
    s.PermitsAll (formalMoves bound formals) := by
  induction formals generalizing s bound with
  | nil => trivial
  | cons f rest ih =>
    rw [formalMoves]
    split
    · exact ih bound
    · exact ⟨trivial, ih (f.name :: bound)⟩

/-- Binding formal parameters makes the moves listed for them. -/
theorem bindFormals_run {bound : List Name} (formals : List Formal)
    (state : CheckState × List Finding)
    (here : ∀ name, state.1.vars.boundHere name = decide (name ∈ bound)) :
    (formals.foldl g.bindFormal state).1 = state.1.run (formalMoves bound formals) := by
  induction formals generalizing bound state with
  | nil => rfl
  | cons f rest ih =>
    obtain ⟨s, findings⟩ := state
    rw [List.foldl_cons, formalMoves, bindFormal, here]
    by_cases isSelf : f.name = Known.self
    · simp only [isSelf, if_true, true_or]
      exact ih _ here
    · by_cases taken : f.name ∈ bound
      · simp only [isSelf, taken, if_true, if_false, or_true, decide_true]
        exact ih _ here
      · simp only [isSelf, taken, or_self, decide_false, if_false, CheckState.run_cons]
        refine ih (s.bind f.name f.type, _) fun name => ?_
        change (s.vars.bind f.name f.type).2.boundHere name = _
        rw [Scoped.boundHere_bind, here]
        simp [Bool.decide_or, eq_comm]

/-- The moves that open a feature lead to the state in which its body is checked. -/
theorem featureState_eq_run (g : Setting) (s : CheckState) (f : Feature) :
    g.featureState s f = s.run f.opening := by
  cases f with
  | attr a => rfl
  | method m =>
    refine bindFormals_run m.formals (s.enter, []) fun name => ?_
    rw [decide_eq_false List.not_mem_nil]
    exact Scoped.boundHere_enter s.vars name

theorem typeFeature_leads (depth : s.depth = d) (f : Feature) :
    s.Leads d (f.moves g.maxDepth d) (g.typeFeature s f).state := by
  have opened : s.Leads d f.opening (g.featureState s f) := by
    rw [featureState_eq_run]
    cases f with
    | attr a => exact CheckState.leads_nil depth
    | method m =>
      have bound := formalMoves_leads (s := s.enter) [] m.formals depth
      exact ⟨depth, rfl, bound.after⟩
  have inner := opened.trans (typeExpr_leads (g := g) opened.after f.root)
  rw [Feature.moves, ← List.append_assoc]
  cases f with
  | attr a => exact inner.trans (CheckState.leads_nil inner.after)
  | method m => exact inner.trans ⟨inner.after, rfl, inner.after⟩

/-- The checker makes the moves that are listed for features. -/
theorem typeFeatures_run (g : Setting) (s : CheckState) (features : List Feature) :
    (g.typeFeatures s features).state =
      s.run (features.flatMap (Feature.moves g.maxDepth s.depth)) := by
  induction features generalizing s with
  | nil => rfl
  | cons first rest ih =>
    have step := typeFeature_leads (g := g) (s := s) rfl first
    rw [typeFeatures, List.flatMap_cons, CheckState.run_append, ← step.run, ih, step.after]

/-- Checking a feature in the class scope leads nowhere, and all its moves are possible. -/
theorem closes_feature (g : Setting) {Γ : TypeEnv} (agrees : s.vars.Agrees Γ) (limit depth : Nat)
    (f : Feature) : s.Closes (f.moves limit depth) := by
  cases f with
  | attr a =>
    refine CheckState.closes_append (CheckState.closes_nil s) ?_
    exact CheckState.closes_append (CheckState.closes_moves agrees.consistent limit depth a.init)
      (CheckState.closes_nil s)
  | method m =>
    have binds := bindsFormals_foldl (g := g) agrees m.formals
    have opened : s.run (Feature.method m).opening = g.featureState s (.method m) :=
      (featureState_eq_run g s (.method m)).symm
    have inner := CheckState.closes_moves (s := g.featureState s (.method m))
      binds.agrees.consistent limit depth m.body
    constructor
    · rw [Feature.moves, CheckState.permitsAll_append, CheckState.permitsAll_append, opened,
        Feature.root, inner.returns]
      refine ⟨⟨trivial, permitsAll_formalMoves [] m.formals⟩, inner.permits, ?_, trivial⟩
      exact Option.isSome_of_eq_some binds.leaves
    · rw [Feature.moves, CheckState.run_append, CheckState.run_append, opened, Feature.root,
        inner.returns]
      change (g.featureState s (.method m)).leave = s
      rw [CheckState.leave, featureState, binds.leaves, Option.getD_some]
      obtain ⟨vars, depth⟩ := s
      rw [CheckState.mk.injEq]
      exact ⟨rfl, binds.depth⟩

end Setting

/-! ## Classes -/

/-- What holds of the variables of every class, and is kept when a variable not named `self` is
bound, holds of the class scope. -/
theorem Variables.ofClass_induction {P : Variables → Prop} (every : P ofEveryClass)
    (bind : ∀ vars name type, name ≠ Known.self → P vars → P (Scoped.bind vars name type).2)
    (h : Hierarchy) (c : ClassSignature) : P (ofClass h c).1 := by
  rw [ofClass, declareAll_fst, ← List.foldl_append]
  generalize ((h.ancestors c.name).drop 1).flatMap ClassSignature.attributes ++ c.attributes
    = attributes
  generalize ofEveryClass = vars at every
  induction attributes generalizing vars with
  | nil => exact every
  | cons a rest ih =>
    refine ih _ ?_
    unfold inherit
    split
    · exact every
    · next free =>
      rw [not_or] at free
      exact bind vars a.name a.type free.1 every

namespace Program

variable {h : Hierarchy} {m : Nat} {c : Class} {s : CheckState}

/-- The checker of a class comes to a state. -/
def Reached (h : Hierarchy) (m : Nat) (c : Class) (s : CheckState) : Prop :=
  ∃ before, before <+: c.moves m ∧ s = (classState h c).run before

theorem classState_sound (h : Hierarchy) (c : Class) : (classState h c).vars.Sound :=
  Variables.ofClass_induction (Scoped.sound_bind Scoped.sound_empty _ _)
    (fun _ name type _ sound => Scoped.sound_bind sound name type) h (ClassSignature.ofClass c)

/-- Only the class scope is open in it. -/
theorem classState_inner (h : Hierarchy) (c : Class) : (classState h c).vars.inner = [] := by
  refine Variables.ofClass_induction (P := fun vars => vars.inner = []) rfl ?_ h
    (ClassSignature.ofClass c)
  intro vars name type _ root
  simp [Scoped.bind, Scoped.setCurrent, root]

theorem closes_class (h : Hierarchy) (m : Nat) (c : Class) :
    (classState h c).Closes (c.moves m) :=
  CheckState.closes_flatMap fun f _ =>
    Setting.closes_feature (setting h m c) (classState_agrees h c) m 0 f

/-- In every state that the checker comes to, the index says which scopes bind a name. -/
theorem Reached.sound (reached : Reached h m c s) : s.vars.Sound := by
  obtain ⟨before, ⟨rest, listed⟩, rfl⟩ := reached
  have possible := (closes_class h m c).permits
  rw [← listed, CheckState.permitsAll_append] at possible
  exact CheckState.sound_run (classState_sound h c) possible.1

/-- Every node down to the nesting limit is checked in a state that the checker comes to. -/
theorem outcome_calls {f : Feature} {path : List Nat} {binders : List (Name × Name)} {e : Expr}
    (hf : f ∈ c.features) (found : f.root.at? path = some (binders, e))
    (within : path.length ≤ m) :
    ∃ s, Reached h m c s ∧ s.depth = path.length ∧
      (outcome h m c f).node.sub? path = some ((setting h m c).typeExpr s e).node := by
  obtain ⟨first, last, split⟩ := List.append_of_mem hf
  have atRoot := rootState_depth h m c f
  have consistent := rootState_consistent h m c f
  obtain ⟨before, ⟨rest, listed⟩, leads⟩ :=
    CheckState.moves_inside consistent m 0 found (by omega)
  obtain ⟨-, recorded⟩ := Setting.typeExpr_inside (g := setting h m c) consistent found
    (by rw [atRoot, Nat.zero_add]; exact within)
  -- the features before this one lead nowhere
  have skipped : (classState h c).Closes (first.flatMap (Feature.moves m 0)) :=
    CheckState.closes_flatMap fun other _ =>
      Setting.closes_feature (setting h m c) (classState_agrees h c) m 0 other
  have opened : (classState h c).run f.opening = rootState h m c f :=
    (Setting.featureState_eq_run (setting h m c) (classState h c) f).symm
  refine ⟨(rootState h m c f).inside binders path.length, ?_, ?_, ?_⟩
  · refine ⟨first.flatMap (Feature.moves m 0) ++ (f.opening ++ before),
      ⟨rest ++ (f.closing ++ last.flatMap (Feature.moves m 0)), ?_⟩, ?_⟩
    · rw [Class.moves, split, List.flatMap_append, List.flatMap_cons, Feature.moves, ← listed]
      simp
    · rw [CheckState.run_append, CheckState.run_append, skipped.returns, opened, leads]
  · rw [CheckState.inside, atRoot, Nat.zero_add]
  · rw [outcome_node]
    exact recorded

/-- What holds while the features of a class are checked. -/
structure RestorationLaws (h : Hierarchy) (m : Nat) (c : Class) : Prop where
  /-- From any state the checker makes the moves that are listed for an expression. -/
  expressions : ∀ (s : CheckState) (e : Expr),
    ((setting h m c).typeExpr s e).state = s.run (e.moves m s.depth)
  /-- From any state the checker makes the moves that are listed for the features. -/
  moves : ∀ s : CheckState, ((setting h m c).typeFeatures s c.features).state =
    s.run (c.features.flatMap (Feature.moves m s.depth))
  /-- Every node down to the nesting limit is checked in a state that the checker comes to, and
  what it finds there is recorded under the path of the node. -/
  calls : ∀ {f : Feature} {path : List Nat} {binders : List (Name × Name)} {e : Expr},
    f ∈ c.features → f.root.at? path = some (binders, e) → path.length ≤ m →
    ∃ s, Reached h m c s ∧ s.depth = path.length ∧
      (outcome h m c f).node.sub? path = some ((setting h m c).typeExpr s e).node
  /-- In every such state the checker comes back from any expression with the same scopes, the
  same bindings and the same depth. -/
  restores : ∀ s, Reached h m c s → ∀ e, ((setting h m c).typeExpr s e).state = s
  /-- After every feature the class scope is as it was built, no other scope is open, and the
  depth is 0. -/
  features : ∀ {before : List Feature} {s : CheckState}, before <+: c.features →
    s = ((setting h m c).typeFeatures (classState h c) before).state →
    s.vars = (Variables.ofClass h (ClassSignature.ofClass c)).1 ∧ s.vars.inner = [] ∧
      s.depth = 0
  /-- Whenever the checker leaves a scope, it is not the class scope. -/
  leaves : ∀ {before after : List Move}, c.moves m = before ++ .leave :: after →
    ∃ outer, ((classState h c).run before).vars.leave? = some outer

/-- **The checker restores its state.**  Whatever class it checks and whatever is wrong in it, it
comes back from every expression to the scopes and the depth that it went in with, and never leaves
the class scope. -/
theorem checking_restores (h : Hierarchy) (m : Nat) (c : Class) : RestorationLaws h m c where
  expressions s e := Setting.typeExpr_run (setting h m c) s e
  moves s := Setting.typeFeatures_run (setting h m c) s c.features
  calls hf found within := outcome_calls hf found within
  restores s reached e := Setting.typeExpr_state reached.sound.toConsistent e
  features := by
    rintro before s ⟨rest, listed⟩ rfl
    have inScope : ((setting h m c).typeFeatures (classState h c) before).state =
        classState h c := by
      rw [Setting.typeFeatures_eq (classState_agrees h c)]
    rw [inScope]
    exact ⟨rfl, classState_inner h c, rfl⟩
  leaves := by
    intro before after listed
    have possible := (closes_class h m c).permits
    rw [listed, CheckState.permitsAll_append] at possible
    exact Option.isSome_iff_exists.mp possible.2.1

/-- The moves up to the call of `callInLet` in `classWithLet`. -/
def movesToCall : List Move :=
  [.deeper, .shallower, .enter, .bind "x" "Int", .deeper, .deeper, .shallower, .enter,
    .bind "y" "Main"]

/-- At `callInLet` two scopes are open at depth 1, and the checker comes back to them from any
expression. -/
theorem checking_restores_at_call :
    ∃ s, Reached (declared ⟨[classWithLet]⟩) 1000 classWithLet s ∧
      s.vars.inner = [[("y", "Main")], [("x", "Int")]] ∧ s.depth = 1 ∧
      ∀ e, ((setting (declared ⟨[classWithLet]⟩) 1000 classWithLet).typeExpr s e).state = s := by
  have laws := checking_restores (declared ⟨[classWithLet]⟩) 1000 classWithLet
  have reached : Reached (declared ⟨[classWithLet]⟩) 1000 classWithLet
      ((classState (declared ⟨[classWithLet]⟩) classWithLet).run movesToCall) :=
    ⟨movesToCall, ⟨_, rfl⟩, rfl⟩
  exact ⟨_, reached, rfl, rfl, laws.restores _ reached⟩

end Program

end SelfTyped
