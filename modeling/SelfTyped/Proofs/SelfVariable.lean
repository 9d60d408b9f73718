/-
SelfTyped.Proofs.SelfVariable — `self` has type `SELF_TYPE` everywhere.

The class scope binds `self` first of all.  From then on no move of the
checker binds it (`Expr.sparesSelf_moves`): attributes of that name, inherited
or not, are left out of the class scope, formal parameters are skipped, and a
`let` or a branch opens a scope without a variable.  So in every state that
the checker comes to, the class scope binds `self` to `SELF_TYPE` and no
scope inside binds it (`Variables.KeepsSelf`).

The invariant is on all open scopes and not on the lookup alone: when a
scope is left the lookup is that of the scopes outside.
-/
import SelfTyped.Proofs.CheckerMoves
import SelfTyped.Proofs.SelfMisuses

namespace SelfTyped

/-! ## Scopes -/

/-- The class scope binds `self` to `SELF_TYPE`, and no scope inside binds it. -/
structure Variables.KeepsSelf (vars : Variables) : Prop where
  root : vars.root.get? Known.self = some Known.selfType
  inner : ∀ scope ∈ vars.inner, scope.get? Known.self = none

namespace Variables

variable {vars : Variables} {name type : Name}

theorem KeepsSelf.lookup (keeps : vars.KeepsSelf) (consistent : Scoped.Consistent vars) :
    Scoped.lookup vars Known.self = some Known.selfType := by
  rw [Scoped.lookup_eq_innermost consistent, Scoped.innermost, Scoped.scopes,
    List.findSome?_append, List.findSome?_eq_none_iff.mpr keeps.inner]
  simp [keeps.root]

theorem keepsSelf_enter (keeps : vars.KeepsSelf) :
    KeepsSelf (Scoped.enter vars) where
  root := keeps.root
  inner := by
    intro scope mem
    rcases List.mem_cons.mp mem with rfl | mem
    · rfl
    · exact keeps.inner scope mem

theorem keepsSelf_bind (keeps : vars.KeepsSelf) (notSelf : name ≠ Known.self) :
    KeepsSelf (Scoped.bind vars name type).2 := by
  have unchanged : ∀ scope : Assoc Name,
      (scope.insert name type).get? Known.self = scope.get? Known.self := by
    intro scope
    rw [Assoc.get?_insert, if_neg notSelf]
  obtain ⟨inner, root, index⟩ := vars
  cases inner with
  | nil => exact ⟨(unchanged root).trans keeps.root, keeps.inner⟩
  | cons first outer =>
    refine ⟨keeps.root, fun scope mem => ?_⟩
    rcases List.mem_cons.mp mem with rfl | mem
    · exact (unchanged first).trans (keeps.inner first List.mem_cons_self)
    · exact keeps.inner scope (List.mem_cons_of_mem first mem)

theorem keepsSelf_leave? {left : Variables} (keeps : vars.KeepsSelf)
    (leaves : Scoped.leave? vars = some left) : left.KeepsSelf := by
  obtain ⟨inner, root, index⟩ := vars
  cases inner with
  | nil => simp [Scoped.leave?] at leaves
  | cons first outer =>
    rw [Scoped.leave?, Option.some.injEq] at leaves
    subst leaves
    exact ⟨keeps.root, fun scope mem => keeps.inner scope (List.mem_cons_of_mem first mem)⟩

/-- Attributes named `self` are left out of the class scope, inherited ones too. -/
theorem keepsSelf_ofClass (h : Hierarchy) (c : ClassSignature) : (ofClass h c).1.KeepsSelf :=
  ofClass_induction ⟨rfl, fun _ mem => absurd mem List.not_mem_nil⟩
    (fun _ _ _ notSelf keeps => keepsSelf_bind keeps notSelf) h c

end Variables

/-! ## Moves -/

namespace Move

/-- A move does not bind `self`. -/
def SparesSelf : Move → Prop
  | .bind name _ => name ≠ Known.self
  | _ => True

theorem sparesSelf_opening (binder : Binder) : ∀ move ∈ opening binder, move.SparesSelf := by
  intro move mem
  match binder with
  | none => simp [opening] at mem
  | some (name, type) =>
    rw [opening, List.mem_cons, binding] at mem
    rcases mem with rfl | mem
    · trivial
    · by_cases isSelf : name = Known.self
      · simp [isSelf] at mem
      · rw [if_neg isSelf, List.mem_singleton] at mem
        rw [mem]
        exact isSelf

theorem sparesSelf_closing (binder : Binder) : ∀ move ∈ closing binder, move.SparesSelf := by
  intro move mem
  match binder with
  | none => simp [closing] at mem
  | some _ =>
    rw [closing, List.mem_singleton] at mem
    rw [mem]
    trivial

end Move

/-- No expression binds `self`, whatever its `let` variables and branches are named. -/
theorem Expr.sparesSelf_moves (limit depth : Nat) (e : Expr) :
    ∀ move ∈ e.moves limit depth, move.SparesSelf := by
  induction e using Expr.parts_induction generalizing depth with
  | step line form ih =>
    intro move mem
    rw [Expr.moves, Form.moves_eq] at mem
    split at mem
    · exact absurd mem List.not_mem_nil
    · simp only [List.mem_cons, List.mem_append, List.mem_flatMap, Part.moves, List.not_mem_nil,
        or_false] at mem
      rcases mem with rfl | ⟨part, hpart, opens | inside | closes⟩ | rfl
      · trivial
      · exact Move.sparesSelf_opening part.binder move opens
      · exact ih part hpart (depth + 1) move inside
      · exact Move.sparesSelf_closing part.binder move closes
      · trivial

theorem sparesSelf_formalMoves (bound : List Name) (formals : List Formal) :
    ∀ move ∈ formalMoves bound formals, move.SparesSelf := by
  induction formals generalizing bound with
  | nil =>
    intro move mem
    exact absurd mem List.not_mem_nil
  | cons f rest ih =>
    intro move mem
    rw [formalMoves] at mem
    split at mem
    · exact ih bound move mem
    · next free =>
      rw [not_or] at free
      rcases List.mem_cons.mp mem with rfl | mem
      · exact free.1
      · exact ih (f.name :: bound) move mem

theorem Feature.sparesSelf_moves (limit depth : Nat) (f : Feature) :
    ∀ move ∈ f.moves limit depth, move.SparesSelf := by
  intro move mem
  rw [Feature.moves, List.mem_append, List.mem_append] at mem
  rcases mem with opens | inside | closes
  · cases f with
    | attr a => simp [opening] at opens
    | method m =>
      rcases List.mem_cons.mp opens with rfl | bound
      · trivial
      · exact sparesSelf_formalMoves [] m.formals move bound
  · exact f.root.sparesSelf_moves limit depth move inside
  · cases f with
    | attr a => simp [closing] at closes
    | method m =>
      rw [closing, List.mem_singleton] at closes
      rw [closes]
      trivial

/-- No move of a class binds `self`. -/
theorem Class.sparesSelf_moves (limit : Nat) (c : Class) :
    ∀ move ∈ c.moves limit, move.SparesSelf := by
  intro move mem
  obtain ⟨f, _, mem⟩ := List.mem_flatMap.mp mem
  exact f.sparesSelf_moves limit 0 move mem

namespace CheckState

variable {s : CheckState} {moves : List Move}

/-- A possible move that does not bind `self` keeps it. -/
theorem keepsSelf_move {move : Move} (keeps : s.vars.KeepsSelf) (possible : s.Permits move)
    (spares : move.SparesSelf) : (s.move move).vars.KeepsSelf := by
  cases move with
  | enter => exact Variables.keepsSelf_enter keeps
  | leave => exact Variables.keepsSelf_leave? keeps (permits_leave possible)
  | bind name type => exact Variables.keepsSelf_bind keeps spares
  | deeper | shallower => exact keeps

theorem keepsSelf_run (keeps : s.vars.KeepsSelf) (possible : s.PermitsAll moves)
    (spares : ∀ move ∈ moves, move.SparesSelf) : (s.run moves).vars.KeepsSelf :=
  run_induction (P := fun s => s.vars.KeepsSelf) Move.SparesSelf
    (fun _ _ keeps possible spares => keepsSelf_move keeps possible spares) keeps possible spares

end CheckState

namespace Program

variable {p : Program} {h : Hierarchy} {m : Nat} {c : Class} {s : CheckState}

/-! ## Runs -/

/-- In every state that the checker comes to, `self` has type `SELF_TYPE`. -/
theorem Reached.lookup_self (reached : Reached h m c s) :
    s.vars.lookup Known.self = some Known.selfType := by
  refine Variables.KeepsSelf.lookup ?_ reached.sound.toConsistent
  obtain ⟨before, ⟨rest, listed⟩, rfl⟩ := reached
  have possible := (closes_class h m c).permits
  have spares := c.sparesSelf_moves m
  rw [← listed] at possible spares
  rw [CheckState.permitsAll_append] at possible
  refine CheckState.keepsSelf_run (Variables.keepsSelf_ofClass h _) possible.1 ?_
  exact fun move mem => spares move (List.mem_append_left rest mem)

/-- A node that refers to `self` above the limit has type `SELF_TYPE`. -/
theorem Reached.typeExpr_self (reached : Reached h m c s) (deep : s.depth < m) (line : Nat) :
    ((setting h m c).typeExpr s ⟨line, .object Known.self⟩).node.type = Known.selfType := by
  have found : s.deeper.vars.lookup Known.self = some Known.selfType := reached.lookup_self
  rw [Setting.typeExpr_of_lt deep, Setting.infer, Setting.checkObject, found]
  rfl

/-- What holds of `self` in the analysis of a program. -/
structure SelfLaws (p : Program) (h : Hierarchy) (m : Nat) (a : Analysis) : Prop where
  /-- In every state in the course of checking a class `self` has type `SELF_TYPE`. -/
  scope : ∀ c ∈ p.classes, ∀ s, Reached h m c s →
    s.vars.lookup Known.self = some Known.selfType
  /-- So it is recorded at every node above the limit that refers to `self`. -/
  recorded : ∀ {i j line : Nat} {c : Class} {f : Feature} {path : List Nat}
    {binders : List (Name × Name)}, p.classes[i]? = some c → c.features[j]? = some f →
    f.root.at? path = some (binders, ⟨line, .object Known.self⟩) → path.length < m →
    a.recordedType? i j path = some Known.selfType
  /-- Every attribute and formal parameter named `self`, and above the limit every `let`, branch
  and assignment for that name, is reported by an error of its own at its line. -/
  reported : (misuseReports a.findings).Perm (p.misuses m)

/-- **`self` always means `SELF_TYPE`.**  In whatever way a program tries to declare `self` anew or
to assign to it, the name keeps its type throughout the analysis, and each attempt is reported. -/
theorem self_constant (built : Hierarchy.build p = .ok h) (m : Nat) :
    ∃ a, p.analyse m = .ok a ∧ SelfLaws p h m a := by
  refine ⟨_, analyse_of_build built, ?_⟩
  constructor
  · intro c _ s reached
    exact reached.lookup_self
  · intro i j line c f path binders hc hf found deep
    obtain ⟨s, reached, depth, recorded⟩ :=
      outcome_calls (h := h) (List.mem_of_getElem? hf) found (Nat.le_of_lt deep)
    rw [Analysis.recordedType?, typeIn_nodes, hc, Option.bind_some, hf, Option.bind_some, recorded,
      Option.map_some, reached.typeExpr_self (by omega)]
  · exact typeIn_misuses p h m

/-- A body that binds `self` in a `let` and in a branch, and assigns to it. -/
def selfishBody : Expr :=
  ⟨4, .letIn "self" "Int" ⟨4, .int 1⟩
    ⟨5, .case ⟨5, .object "self"⟩
      [⟨6, "self", "Bool", ⟨7, .assign "self" ⟨7, .object "self"⟩⟩⟩]⟩⟩

/-- A class with an attribute and a formal parameter named `self`, and `selfishBody`. -/
def selfishClass : Class :=
  ⟨1, "Main", "Object", "self.cl",
    [.attr ⟨2, "self", "Int", ⟨2, .object "self"⟩⟩,
      .method ⟨3, "main", [⟨3, "self", "String"⟩], "Object", selfishBody⟩]⟩

/-- All five attempts of `selfishClass` are reported, and the value that is assigned in the end
still has type `SELF_TYPE`. -/
theorem self_constant_five_attempts :
    Hierarchy.build ⟨[selfishClass]⟩ = .ok (declared ⟨[selfishClass]⟩) ∧
      ∃ a, analyse ⟨[selfishClass]⟩ 1000 = .ok a ∧
        a.recordedType? 0 1 [1, 1, 0] = some "SELF_TYPE" ∧
        (misuseReports a.findings).Perm [⟨⟨"self.cl", 2⟩, .selfAttribute⟩,
          ⟨⟨"self.cl", 3⟩, .selfFormal⟩, ⟨⟨"self.cl", 4⟩, .selfInLet⟩,
          ⟨⟨"self.cl", 6⟩, .selfInCase⟩, ⟨⟨"self.cl", 7⟩, .assignToSelf⟩] := by
  have built : Hierarchy.build ⟨[selfishClass]⟩ = .ok (declared ⟨[selfishClass]⟩) := rfl
  obtain ⟨a, analysed, laws⟩ := self_constant built 1000
  have hc : (Program.mk [selfishClass]).classes[0]? = some selfishClass := rfl
  have hf : selfishClass.features[1]? =
      some (.method ⟨3, "main", [⟨3, "self", "String"⟩], "Object", selfishBody⟩) := rfl
  have found : selfishBody.at? [1, 1, 0] =
      some ([("self", "Int"), ("self", "Bool")], ⟨7, .object "self"⟩) := rfl
  exact ⟨built, a, analysed, laws.recorded hc hf found (by decide), laws.reported⟩

end Program

end SelfTyped
