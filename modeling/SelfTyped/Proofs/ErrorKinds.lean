/-
SelfTyped.Proofs.ErrorKinds — errors that do not depend on types.

Two kinds of errors can be read off the text of a program: that the nesting
limit is reached, and that `self` is declared or assigned to.  What a run
reports of such a kind (`ErrorKind.among`) is found here rule by rule.  A
rule reports at most that a name is `self`; all its other errors are
ordinary, and drop out.
-/
import SelfTyped.Typing.Analysis

namespace SelfTyped

/-! ## Kinds -/

namespace TypeError

/-- Whether an error reports the nesting limit. -/
def isCut : TypeError → Bool
  | .nestingTooDeep _ => true
  | _ => false

/-- Whether an error reports that `self` is declared or assigned to. -/
def isMisuse (error : TypeError) : Bool :=
  [selfAttribute, selfFormal, selfInLet, selfInCase, assignToSelf].contains error

/-- An error of none of these kinds. -/
def Ordinary (error : TypeError) : Prop :=
  (∀ limit, error ≠ .nestingTooDeep limit) ∧
    error ∉ [selfAttribute, selfFormal, selfInLet, selfInCase, assignToSelf]

@[simp] theorem ordinary_iff {error : TypeError} :
    error.Ordinary ↔ (∀ limit, error ≠ .nestingTooDeep limit) ∧
      error ∉ [selfAttribute, selfFormal, selfInLet, selfInCase, assignToSelf] := Iff.rfl

end TypeError

/-- A kind of errors to which no ordinary error belongs. -/
structure ErrorKind where
  holds : TypeError → Bool
  ordinary : ∀ error : TypeError, error.Ordinary → holds error = false

namespace ErrorKind

/-- Reports of the nesting limit. -/
def cut : ErrorKind where
  holds := TypeError.isCut
  ordinary := by
    intro error plain
    cases error with
    | nestingTooDeep limit => exact absurd rfl (plain.1 limit)
    | _ => rfl

/-- Reports of misuses of `self`. -/
def misuse : ErrorKind where
  holds := TypeError.isMisuse
  ordinary := by
    intro error plain
    rw [TypeError.isMisuse, List.contains_eq_mem, decide_eq_false plain.2]

/-- The findings of a kind. -/
def among (kind : ErrorKind) (findings : List Finding) : List Finding :=
  findings.filter fun f => kind.holds f.error

variable {kind : ErrorKind} {g : Setting} {vars : Variables} {line : Nat} {name type : Name}
  {types : List Name}

@[simp] theorem among_nil : kind.among [] = [] := rfl

@[simp] theorem among_append (first second : List Finding) :
    kind.among (first ++ second) = kind.among first ++ kind.among second := by
  simp [among]

@[simp] theorem among_flatMap {α : Type} (items : List α) (found : α → List Finding) :
    kind.among (items.flatMap found) = items.flatMap fun item => kind.among (found item) :=
  List.filter_flatMap

theorem among_singleton {location : Location} {error : TypeError} (plain : error.Ordinary) :
    kind.among [⟨location, error⟩] = [] := by
  simp [among, kind.ordinary error plain]

@[simp] theorem among_report {error : TypeError} (plain : error.Ordinary) :
    kind.among (g.report line error) = [] :=
  among_singleton plain

@[simp] theorem among_require {condition : Bool} {error : TypeError} (plain : error.Ordinary) :
    kind.among (g.require condition line error) = [] := by
  unfold Setting.require
  split
  · rfl
  · exact among_report plain

/-! ## Rules -/

@[simp] theorem among_checkObject : kind.among (g.checkObject vars line name).2 = [] := by
  unfold Setting.checkObject
  split <;> simp

/-- What a rule reports if the variable that it speaks of is named `self`. -/
@[simp] theorem among_checkAssign :
    kind.among (g.checkAssign vars line name type).2 =
      kind.among (g.require (name != Known.self) line .assignToSelf) := by
  unfold Setting.checkAssign
  split
  · next isSelf => simp [Setting.require, isSelf]
  · next notSelf =>
    rw [Setting.require, if_pos (by simpa using notSelf)]
    split
    · simp
    · split <;> simp

@[simp] theorem among_checkArgs {m : MethodSignature} :
    kind.among (g.checkArgs line m types) = [] := by
  unfold Setting.checkArgs
  split <;> simp

@[simp] theorem among_checkCall {start method receiver : Name} :
    kind.among (g.checkCall line start method receiver types).2 = [] := by
  unfold Setting.checkCall
  split <;> simp

@[simp] theorem among_checkDispatch {method receiver : Name} :
    kind.among (g.checkDispatch line method receiver types).2 = [] := by
  unfold Setting.checkDispatch
  simp only
  split <;> simp

@[simp] theorem among_checkStaticDispatch {named method receiver : Name} :
    kind.among (g.checkStaticDispatch line named method receiver types).2 = [] := by
  unfold Setting.checkStaticDispatch
  split
  · simp
  · split <;> simp

@[simp] theorem among_checkBranch {earlier : List Name} :
    kind.among (g.checkBranch line earlier name type) =
      kind.among (g.require (name != Known.self) line .selfInCase) := by
  unfold Setting.checkBranch
  split <;> simp

@[simp] theorem among_checkLet {init : Option Name} :
    kind.among (g.checkLet line name type init) =
      kind.among (g.require (name != Known.self) line .selfInLet) := by
  unfold Setting.checkLet
  split <;> simp

@[simp] theorem among_checkBinary {op : Operator} {left right : Name} :
    kind.among (g.checkBinary line op left right).2 = [] := by
  unfold Setting.checkBinary
  split
  · simp
  · split <;> simp

@[simp] theorem among_checkNew : kind.among (g.checkNew line type).2 = [] := by
  unfold Setting.checkNew
  split <;> simp

/-! ## Declarations -/

@[simp] theorem among_checkFormalType (f : Formal) : kind.among (g.checkFormalType f) = [] := by
  unfold Setting.checkFormalType
  split <;> simp

theorem among_bindFormals (formals : List Formal) (state : CheckState × List Finding) :
    kind.among (formals.foldl g.bindFormal state).2 =
      kind.among state.2 ++ formals.flatMap fun f =>
        kind.among (g.require (f.name != Known.self) f.line .selfFormal) := by
  induction formals generalizing state with
  | nil => simp
  | cons f rest ih =>
    have step : kind.among (g.bindFormal state f).2 =
        kind.among state.2 ++
          kind.among (g.require (f.name != Known.self) f.line .selfFormal) := by
      unfold Setting.bindFormal Setting.require
      by_cases isSelf : f.name = Known.self
      · simp [isSelf]
      · simp only [isSelf, if_false, bne_iff_ne, ne_eq, not_false_eq_true, if_true]
        split <;> simp
    rw [List.foldl_cons, ih, step, List.flatMap_cons, List.append_assoc]

/-- The class scope reports ordinary errors only. -/
theorem among_ofClass (h : Hierarchy) (c : ClassSignature) :
    kind.among (Variables.ofClass h c).2 = [] := by
  have declareAll : ∀ (attributes : List AttributeSignature) (state : Variables × List Finding),
      kind.among (attributes.foldl (Variables.declare c) state).2 = kind.among state.2 := by
    intro attributes
    induction attributes with
    | nil => exact fun _ => rfl
    | cons a rest ih =>
      intro state
      rw [List.foldl_cons, ih]
      unfold Variables.declare
      split
      · rfl
      · split <;> simp [among_singleton]
  exact declareAll c.attributes _

/-- The method table reports ordinary errors only. -/
theorem among_build (h : Hierarchy) : kind.among (MethodTable.build h).2 = [] := by
  have addAll : ∀ (c : ClassSignature) (methods : List MethodSignature)
      (state : MethodTable × List Finding),
      kind.among (methods.foldl (MethodTable.add c) state).2 = kind.among state.2 := by
    intro c methods
    induction methods with
    | nil => exact fun _ => rfl
    | cons m rest ih =>
      intro state
      rw [List.foldl_cons, ih]
      unfold MethodTable.add
      split <;> simp [among_singleton]
  have addClasses : ∀ (classes : List ClassSignature) (state : MethodTable × List Finding),
      kind.among (classes.foldl MethodTable.addClass state).2 = kind.among state.2 := by
    intro classes
    induction classes with
    | nil => exact fun _ => rfl
    | cons c rest ih =>
      intro state
      rw [List.foldl_cons, ih]
      exact addAll c c.methods state
  exact addClasses h.classes (⟨[]⟩, [])

end ErrorKind

end SelfTyped
