/-
SelfTyped.Proofs.RuleCheck — the checks on types decide the rules.

A `Setting` judges an expression from the types of its parts.  Here each of
its checks is compared with the relation that it is meant to decide: the
type it gives is that of `Rule`, and it finds nothing wrong exactly if the
`SideCondition` holds.  Nothing in this module looks at scopes or at the
order in which parts are checked.

What makes a setting fit for this is collected in `Setting.Proper`: the
hierarchy is rooted, the class under consideration is one of its classes,
and the method table is the one of the hierarchy.
-/
import SelfTyped.Proofs.MethodLookup
import SelfTyped.Typing.Setting

namespace SelfTyped

namespace Setting

/-- A setting in which a class of a program is checked. -/
structure Proper (g : Setting) : Prop where
  rooted : g.hierarchy.Rooted
  owned : g.hierarchy.Owned
  methods : g.methods = (MethodTable.build g.hierarchy).1
  known : g.hierarchy.isDefined g.current.name = true

variable {g : Setting} {a b start method receiver : Name} {args : List Name} {line : Nat}
  {error : TypeError} {Γ : TypeEnv} {vars : Variables}

/-! ## Types -/

theorem require_eq_nil {condition : Bool} :
    g.require condition line error = [] ↔ condition = true := by
  cases condition <;> simp [require, report]

theorem isDeclarable_iff : g.isDeclarable a = true ↔ g.hierarchy.IsType a := by
  rw [isDeclarable, Bool.or_eq_true, beq_iff_eq, Hierarchy.IsType]

theorem conforms_iff (proper : g.Proper) :
    g.conforms a b = true ↔ g.hierarchy.Conforms g.current.name a b := by
  have below : g.hierarchy.IsType a →
      (g.hierarchy.isSubclass g.current.name a b = true ↔
        g.hierarchy.Below (Name.resolve g.current.name a) (Name.resolve g.current.name b)) := by
    intro ha
    rw [Hierarchy.isSubclass_iff proper.rooted,
      and_iff_right ((Hierarchy.isType_iff proper.known).mp ha)]
  rw [conforms, Bool.or_eq_true, Bool.or_eq_true, Bool.not_eq_true', Bool.not_eq_true',
    ← Bool.not_eq_true, ← Bool.not_eq_true, isDeclarable_iff, isDeclarable_iff, or_assoc,
    Hierarchy.Conforms]
  by_cases ha : g.hierarchy.IsType a
  · rw [below ha]
  · exact ⟨fun _ => Or.inl ha, fun _ => Or.inl ha⟩

/-- The join that is computed is the join. -/
theorem join_joins (proper : g.Proper) (a b : Name) :
    g.hierarchy.Joins g.current.name a b (g.join a b) := by
  rw [join]
  split
  · next same =>
    rw [same]
    exact .same
  · next differ =>
    by_cases exist : g.hierarchy.IsType a ∧ g.hierarchy.IsType b
    · obtain ⟨ha, hb⟩ := exist
      obtain ⟨left, right, least⟩ := Hierarchy.join_spec proper.rooted
        ((Hierarchy.isType_iff proper.known).mp ha) ((Hierarchy.isType_iff proper.known).mp hb)
      exact .least differ ha hb left right least
    · rw [not_and_or] at exist
      rw [(Hierarchy.subtypingLaws_of_rooted proper.rooted proper.known).joinUnknown a b exist]
      exact .unknown differ exist

/-! ## Calls -/

theorem resolve?_eq_some (proper : g.Proper) {m : MethodSignature} :
    g.methods.resolve? g.hierarchy start method = some m ↔
      g.hierarchy.Resolves method start m := by
  rw [proper.methods]
  exact MethodTable.resolve?_eq_some_iff proper.rooted proper.owned

theorem resolve?_eq_none (proper : g.Proper) :
    g.methods.resolve? g.hierarchy start method = none ↔
      ∀ m, ¬ g.hierarchy.Resolves method start m := by
  rw [proper.methods]
  exact MethodTable.resolve?_eq_none_iff proper.rooted proper.owned

/-- Nothing is wrong with arguments that go with the parameters one by one. -/
theorem checkArgs_eq_nil (proper : g.Proper) (m : MethodSignature) :
    g.checkArgs line m args = [] ↔
      List.Forall₂ (fun param arg => g.hierarchy.Conforms g.current.name arg param.type)
        m.params args := by
  rw [checkArgs, List.forall₂_iff_zip]
  split
  · next sameLength =>
    rw [and_iff_right sameLength, List.flatMap_eq_nil_iff]
    constructor
    · intro silent param arg mem
      exact (conforms_iff proper).mp (require_eq_nil.mp (silent (param, arg) mem))
    · rintro fits ⟨param, arg⟩ mem
      exact require_eq_nil.mpr ((conforms_iff proper).mpr (fits mem))
  · next differ =>
    constructor
    · intro silent
      exact absurd silent (by simp [report])
    · intro fits
      exact absurd fits.1 differ

theorem checkCall_type (proper : g.Proper) :
    g.hierarchy.CallType start method receiver
      (g.checkCall line start method receiver args).1 := by
  rw [checkCall]
  split
  · next missing => exact .missing ((resolve?_eq_none proper).mp missing)
  · next m found => exact .found ((resolve?_eq_some proper).mp found)

theorem checkCall_eq_nil (proper : g.Proper) :
    (g.checkCall line start method receiver args).2 = [] ↔
      g.hierarchy.CallFits g.current.name start method args := by
  rw [checkCall]
  split
  · next missing =>
    constructor
    · intro silent
      exact absurd silent (by simp [report])
    · rintro ⟨m, declared, -⟩
      exact absurd declared ((resolve?_eq_none proper).mp missing m)
  · next m found =>
    have declared := (resolve?_eq_some proper).mp found
    rw [checkArgs_eq_nil proper, Hierarchy.CallFits]
    constructor
    · intro fits
      exact ⟨m, declared, fits⟩
    · rintro ⟨m', declared', fits⟩
      rw [declared.unique declared']
      exact fits

/-- A class that is not known has no methods. -/
theorem not_resolves_of_unknown {m : MethodSignature}
    (unknown : ¬ g.hierarchy.isDefined start = true) : ¬ g.hierarchy.Resolves method start m :=
  fun resolves => unknown resolves.isDefined

theorem checkDispatch_type (proper : g.Proper) :
    g.hierarchy.CallType (Name.resolve g.current.name receiver) method receiver
      (g.checkDispatch line method receiver args).1 := by
  rw [checkDispatch]
  split
  · exact checkCall_type proper
  · next unknown => exact .missing fun m => not_resolves_of_unknown unknown

theorem checkDispatch_eq_nil (proper : g.Proper) :
    (g.checkDispatch line method receiver args).2 = [] ↔
      (g.hierarchy.isDefined (Name.resolve g.current.name receiver) = true →
        g.hierarchy.CallFits g.current.name (Name.resolve g.current.name receiver) method
          args) := by
  rw [checkDispatch]
  split
  · next known => rw [checkCall_eq_nil proper, forall_prop_of_true known]
  · next unknown => exact ⟨fun _ known => absurd known unknown, fun _ => rfl⟩

theorem checkStaticDispatch_type (proper : g.Proper) {named : Name} :
    g.hierarchy.CallType named method receiver
      (g.checkStaticDispatch line named method receiver args).1 := by
  rw [checkStaticDispatch]
  split
  · next isSelfType =>
    refine .missing fun m => not_resolves_of_unknown ?_
    rw [isSelfType, proper.rooted.selfType]
    exact Bool.false_ne_true
  · split
    · exact checkCall_type proper
    · next unknown => exact .missing fun m => not_resolves_of_unknown unknown

theorem checkStaticDispatch_eq_nil (proper : g.Proper) {named : Name} :
    (g.checkStaticDispatch line named method receiver args).2 = [] ↔
      g.hierarchy.isDefined named = true ∧
        g.hierarchy.Conforms g.current.name receiver named ∧
          g.hierarchy.CallFits g.current.name named method args := by
  rw [checkStaticDispatch]
  split
  · next isSelfType =>
    rw [isSelfType, proper.rooted.selfType]
    simp [report]
  · split
    · next known =>
      rw [and_iff_right known, List.append_eq_nil_iff, require_eq_nil, conforms_iff proper,
        checkCall_eq_nil proper]
    · next unknown => simp [report, unknown]

/-! ## Binders -/

theorem checkLet_eq_nil (proper : g.Proper) {name type : Name} {init : Option Name} :
    g.checkLet line name type init = [] ↔
      name ≠ Known.self ∧ g.hierarchy.IsType type ∧
        ∀ a, init = some a → g.hierarchy.Conforms g.current.name a type := by
  cases init with
  | none => simp [checkLet, require_eq_nil, isDeclarable_iff]
  | some actual =>
    simp [checkLet, require_eq_nil, isDeclarable_iff, conforms_iff proper]

theorem checkBranch_eq_nil (proper : g.Proper) {earlier : List Name} {name type : Name} :
    g.checkBranch line earlier name type = [] ↔
      type ∉ earlier ∧ name ≠ Known.self ∧ g.hierarchy.isDefined type = true := by
  rw [checkBranch, List.append_eq_nil_iff, List.append_eq_nil_iff, require_eq_nil, require_eq_nil,
    Bool.not_eq_true', List.contains_eq_mem, decide_eq_false_iff_not, bne_iff_ne]
  split
  · next isSelfType =>
    rw [isSelfType, proper.rooted.selfType]
    simp [report]
  · rw [require_eq_nil]

/-! ## Other expressions -/

theorem checkObject_rule {name : Name} (bound : ∀ name, Scoped.lookup vars name = Γ name) :
    Rule g.hierarchy g.current.name Γ (.object name) [] (g.checkObject vars line name).1 := by
  rw [checkObject]
  split
  · next type found =>
    rw [bound] at found
    exact .object found
  · next free =>
    rw [bound] at free
    exact .objectUndeclared free

theorem checkObject_eq_nil {name : Name} (bound : ∀ name, Scoped.lookup vars name = Γ name) :
    (g.checkObject vars line name).2 = [] ↔
      SideCondition g.hierarchy g.current.name Γ (.object name) [] := by
  rw [checkObject]
  split
  · next type found =>
    rw [bound] at found
    exact ⟨fun _ => .object found, fun _ => rfl⟩
  · next free =>
    rw [bound] at free
    constructor
    · intro silent
      exact absurd silent (by simp [report])
    · rintro ⟨⟩
      simp_all

theorem checkAssign_rule (proper : g.Proper) (bound : ∀ name, Scoped.lookup vars name = Γ name)
    (name : Name) (value : Expr) :
    Rule g.hierarchy g.current.name Γ (.assign name value) [a]
      (g.checkAssign vars line name a).1 := by
  rw [checkAssign]
  split
  · next isSelf =>
    rw [isSelf]
    exact .assignSelf
  · next target =>
    split
    · next free =>
      rw [bound] at free
      exact .assignUndeclared target free
    · next declared found =>
      rw [bound] at found
      split
      · next fits => exact .assign target found ((conforms_iff proper).mp fits)
      · next mismatch =>
        rw [conforms_iff proper] at mismatch
        exact .assignMismatch target found mismatch

theorem checkAssign_eq_nil (proper : g.Proper)
    (bound : ∀ name, Scoped.lookup vars name = Γ name) (name : Name) (value : Expr) :
    (g.checkAssign vars line name a).2 = [] ↔
      SideCondition g.hierarchy g.current.name Γ (.assign name value) [a] := by
  constructor
  · rw [checkAssign]
    intro silent
    split at silent
    · exact absurd silent (by simp [report])
    · next target =>
      split at silent
      · exact absurd silent (by simp [report])
      · next declared found =>
        rw [bound] at found
        split at silent
        · next fits => exact .assign target found ((conforms_iff proper).mp fits)
        · exact absurd silent (by simp [report])
  · intro side
    cases side with
    | assign target found fits =>
      rw [← bound] at found
      have fits := (conforms_iff proper).mpr fits
      simp [checkAssign, target, found, fits]

theorem checkNew_rule (t : Name) :
    Rule g.hierarchy g.current.name Γ (.new t) [] (g.checkNew line t).1 := by
  rw [checkNew]
  split
  · next known => exact .new (isDeclarable_iff.mp known)
  · next unknown =>
    rw [isDeclarable_iff] at unknown
    exact .newUnknown unknown

theorem checkNew_eq_nil (Γ : TypeEnv) (t : Name) :
    (g.checkNew line t).2 = [] ↔ SideCondition g.hierarchy g.current.name Γ (.new t) [] := by
  rw [checkNew]
  split
  · next known => exact ⟨fun _ => .new (isDeclarable_iff.mp known), fun _ => rfl⟩
  · next unknown =>
    rw [isDeclarable_iff] at unknown
    constructor
    · intro silent
      exact absurd silent (by simp [report])
    · rintro ⟨⟩
      contradiction

/-- An operation other than `=` is checked for operands of type `Int`. -/
theorem checkBinary_of_ne {op : Operator} (different : op ≠ .equal) :
    g.checkBinary line op a b =
      if a = Known.int ∧ b = Known.int then
        (if op.isArithmetic then Known.int else Known.bool, [])
      else
        (if op.isArithmetic then Known.object else Known.bool,
          g.report line (.nonIntArguments a op b)) := by
  cases op with
  | equal => exact absurd rfl different
  | plus | minus | times | divide | less | lessOrEqual => rfl

theorem checkBinary_rule (op : Operator) (left right : Expr) :
    Rule g.hierarchy g.current.name Γ (.binary op left right) [a, b]
      (g.checkBinary line op a b).1 := by
  by_cases isEqual : op = .equal
  · rw [isEqual]
    exact .comparison (by decide)
  · rw [checkBinary_of_ne isEqual]
    cases kind : op.isArithmetic with
    | true =>
      split
      · next ints =>
        rw [ints.1, ints.2]
        exact .arithmetic (Operator.isArithmetic_iff.mp kind)
      · next mismatch => exact .arithmeticMismatch (Operator.isArithmetic_iff.mp kind) mismatch
    | false =>
      split <;> exact .comparison (Operator.not_isArithmetic_iff.mp kind)

theorem checkBinary_eq_nil (Γ : TypeEnv) (op : Operator) (left right : Expr) :
    (g.checkBinary line op a b).2 = [] ↔
      SideCondition g.hierarchy g.current.name Γ (.binary op left right) [a, b] := by
  by_cases isEqual : op = .equal
  · subst isEqual
    have comparable : (!(a.isBasicValue || b.isBasicValue) || a == b) = true ↔
        (a ∈ [Known.int, Known.bool, Known.string] ∨ b ∈ [Known.int, Known.bool, Known.string] →
          a = b) := by
      rw [← Name.isBasicValue_iff, ← Name.isBasicValue_iff]
      cases a.isBasicValue <;> cases b.isBasicValue <;> simp
    rw [checkBinary, require_eq_nil, comparable]
    constructor
    · exact fun same => .equal same
    · intro side
      cases side with
      | ints kind => exact absurd rfl kind
      | equal same => exact same
  · rw [checkBinary_of_ne isEqual]
    split
    · next ints =>
      rw [ints.1, ints.2]
      exact ⟨fun _ => .ints isEqual, fun _ => rfl⟩
    · next mismatch =>
      constructor
      · intro silent
        exact absurd silent (by simp [report])
      · intro side
        cases side with
        | ints => exact absurd ⟨rfl, rfl⟩ mismatch
        | equal => exact absurd rfl isEqual

end Setting

end SelfTyped
