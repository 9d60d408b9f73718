/-
SelfTyped.Proofs.Judgement — the typing relation of the language.

`HasType` relates an expression to its type, given the class hierarchy, the
class under consideration and the declared types of the variables.  No
checker state occurs in it: variables are a function (`TypeEnv`) that is
updated at a binder, conformance is reachability along parent links, and a
method is found at the closest class upwards.

Every expression has a type, faulty or not: where a rule is violated, the
relation gives the type that stands in (`Rule`).  Whether the rules are
kept is said apart, by one condition for each kind of expression
(`SideCondition`).

The main statement here is `HasType.unique`: an expression has one type.
-/
import Mathlib.Logic.Function.Basic
import SelfTyped.Proofs.Parts
import SelfTyped.Proofs.Subtyping

namespace SelfTyped

/-! ## Variables -/

/-- The declared types of the variables in scope. -/
abbrev TypeEnv := Name → Option Name

namespace TypeEnv

/-- The variable `name` is bound with a declared type.  The name `self` is never bound. -/
def bind (Γ : TypeEnv) (name type : Name) : TypeEnv :=
  if name = Known.self then Γ else Function.update Γ name (some type)

/-- The variables in the scope of a part. -/
def under (Γ : TypeEnv) : Binder → TypeEnv
  | none => Γ
  | some (name, type) => Γ.bind name type

/-- The variables in scope after several binders, outermost first. -/
def bindAll (Γ : TypeEnv) (binders : List (Name × Name)) : TypeEnv :=
  binders.foldl (fun Γ (name, type) => Γ.bind name type) Γ

theorem bindAll_under (Γ : TypeEnv) (binder : Binder) (inner : List (Name × Name)) :
    Γ.bindAll (binder.toList ++ inner) = (Γ.under binder).bindAll inner := by
  cases binder <;> rfl

end TypeEnv

/-! ## Types -/

namespace Hierarchy

/-- A value of type `a` may stand where one of type `b` is declared.  A type that does not exist
is compatible with every type. -/
def Conforms (h : Hierarchy) (current a b : Name) : Prop :=
  ¬ h.IsType a ∨ ¬ h.IsType b ∨ h.Below (Name.resolve current a) (Name.resolve current b)

/-- The type of an expression that has one of two types. -/
inductive Joins (h : Hierarchy) (current : Name) : Name → Name → Name → Prop
  | same {a : Name} : Joins h current a a a
  | unknown {a b : Name} (differ : a ≠ b) (unknown : ¬ h.IsType a ∨ ¬ h.IsType b) :
      Joins h current a b Known.object
  /-- The least class above both. -/
  | least {a b c : Name} (differ : a ≠ b) (ha : h.IsType a) (hb : h.IsType b)
      (left : h.Below (Name.resolve current a) c) (right : h.Below (Name.resolve current b) c)
      (least : ∀ d, h.Below (Name.resolve current a) d → h.Below (Name.resolve current b) d →
        h.Below c d) : Joins h current a b c

/-- The join of a type and further types, from left to right. -/
inductive JoinsFrom (h : Hierarchy) (current : Name) : Name → List Name → Name → Prop
  | nil {a : Name} : JoinsFrom h current a [] a
  | cons {a b c d : Name} {rest : List Name} (first : h.Joins current a b c)
      (others : JoinsFrom h current c rest d) : JoinsFrom h current a (b :: rest) d

/-- The join of several types.  That of none is `Object`. -/
inductive JoinsAll (h : Hierarchy) (current : Name) : List Name → Name → Prop
  | none : JoinsAll h current [] Known.object
  | some {a c : Name} {rest : List Name} (joins : h.JoinsFrom current a rest c) :
      JoinsAll h current (a :: rest) c

/-! ## Methods -/

/-- The declaration that a call on a class refers to: the first one of that name in the closest
class upwards that has one. -/
inductive Resolves (h : Hierarchy) (method : Name) : Name → MethodSignature → Prop
  | own {a : Name} {c : ClassSignature} {m : MethodSignature} (found : h.find? a = some c)
      (first : c.methods.find? (fun m => m.name == method) = some m) : Resolves h method a m
  | inherited {a b : Name} {c : ClassSignature} {m : MethodSignature} (found : h.find? a = some c)
      (missing : c.methods.find? (fun m => m.name == method) = none) (link : c.parent = some b)
      (above : Resolves h method b m) : Resolves h method a m

end Hierarchy

/-- The type of a call on a receiver of type `receiver`.  A method that returns `SELF_TYPE` gives
back the type of the receiver. -/
def MethodSignature.typeFor (m : MethodSignature) (receiver : Name) : Name :=
  if m.returnType = Known.selfType then receiver else m.returnType

namespace Hierarchy

/-- The type of a call of a method that is sought from the class `start` on. -/
inductive CallType (h : Hierarchy) (start method receiver : Name) : Name → Prop
  | found {m : MethodSignature} (declared : h.Resolves method start m) :
      CallType h start method receiver (m.typeFor receiver)
  | missing (none : ∀ m, ¬ h.Resolves method start m) :
      CallType h start method receiver Known.object

/-- A call finds a declaration, and the arguments go with its parameters one by one. -/
def CallFits (h : Hierarchy) (current start method : Name) (args : List Name) : Prop :=
  ∃ m, h.Resolves method start m ∧
    List.Forall₂ (fun param arg => h.Conforms current arg param.type) m.params args

end Hierarchy

/-! ## Rules -/

/-- The type of each kind of expression, given the types of its parts in the order of evaluation.
The rules whose names end in a fault give the type that stands in. -/
inductive Rule (h : Hierarchy) (current : Name) (Γ : TypeEnv) : Form → List Name → Name → Prop
  | object {x t} (bound : Γ x = some t) : Rule h current Γ (.object x) [] t
  | objectUndeclared {x} (free : Γ x = none) : Rule h current Γ (.object x) [] Known.object
  | assign {x value a t} (target : x ≠ Known.self) (bound : Γ x = some t)
      (fits : h.Conforms current a t) : Rule h current Γ (.assign x value) [a] a
  | assignSelf {value a} : Rule h current Γ (.assign Known.self value) [a] Known.object
  | assignUndeclared {x value a} (target : x ≠ Known.self) (free : Γ x = none) :
      Rule h current Γ (.assign x value) [a] Known.object
  | assignMismatch {x value a t} (target : x ≠ Known.self) (bound : Γ x = some t)
      (mismatch : ¬ h.Conforms current a t) :
      Rule h current Γ (.assign x value) [a] Known.object
  | dispatch {receiver method args r types t}
      (call : h.CallType (Name.resolve current r) method r t) :
      Rule h current Γ (.dispatch receiver method args) (r :: types) t
  | staticDispatch {receiver named method args r types t} (call : h.CallType named method r t) :
      Rule h current Γ (.staticDispatch receiver named method args) (r :: types) t
  | cond {predicate thenArm elseArm a b c t} (join : h.Joins current b c t) :
      Rule h current Γ (.cond predicate thenArm elseArm) [a, b, c] t
  | loop {condition body a b} : Rule h current Γ (.loop condition body) [a, b] Known.object
  | case {scrutinee branches a types t} (join : h.JoinsAll current types t) :
      Rule h current Γ (.case scrutinee branches) (a :: types) t
  | block {items types} : Rule h current Γ (.block items) types (types.getLastD Known.object)
  | letIn {x declared init body a t} : Rule h current Γ (.letIn x declared init body) [a, t] t
  | arithmetic {op left right} (kind : op ∈ [.plus, .minus, .times, .divide]) :
      Rule h current Γ (.binary op left right) [Known.int, Known.int] Known.int
  | arithmeticMismatch {op left right a b} (kind : op ∈ [.plus, .minus, .times, .divide])
      (mismatch : ¬ (a = Known.int ∧ b = Known.int)) :
      Rule h current Γ (.binary op left right) [a, b] Known.object
  | comparison {op left right a b} (kind : op ∈ [.less, .lessOrEqual, .equal]) :
      Rule h current Γ (.binary op left right) [a, b] Known.bool
  | negate {operand a} : Rule h current Γ (.negate operand) [a] Known.int
  | complement {operand a} : Rule h current Γ (.complement operand) [a] Known.bool
  | int {value} : Rule h current Γ (.int value) [] Known.int
  | bool {value} : Rule h current Γ (.bool value) [] Known.bool
  | string {value} : Rule h current Γ (.string value) [] Known.string
  | new {t} (known : h.IsType t) : Rule h current Γ (.new t) [] t
  | newUnknown {t} (unknown : ¬ h.IsType t) : Rule h current Γ (.new t) [] Known.object
  | isVoid {operand a} : Rule h current Γ (.isVoid operand) [a] Known.bool
  | noExpr : Rule h current Γ .noExpr [] Known.noType

/-- What each kind of expression demands of the types of its parts.  A dispatch on a receiver
whose type is no class demands nothing. -/
inductive SideCondition (h : Hierarchy) (current : Name) (Γ : TypeEnv) : Form → List Name → Prop
  | object {x t} (bound : Γ x = some t) : SideCondition h current Γ (.object x) []
  | assign {x value a t} (target : x ≠ Known.self) (bound : Γ x = some t)
      (fits : h.Conforms current a t) : SideCondition h current Γ (.assign x value) [a]
  | dispatch {receiver method args r types}
      (fits : h.isDefined (Name.resolve current r) = true →
        h.CallFits current (Name.resolve current r) method types) :
      SideCondition h current Γ (.dispatch receiver method args) (r :: types)
  | staticDispatch {receiver named method args r types} (known : h.isDefined named = true)
      (receiverFits : h.Conforms current r named) (fits : h.CallFits current named method types) :
      SideCondition h current Γ (.staticDispatch receiver named method args) (r :: types)
  | cond {predicate thenArm elseArm b c} :
      SideCondition h current Γ (.cond predicate thenArm elseArm) [Known.bool, b, c]
  | loop {condition body b} : SideCondition h current Γ (.loop condition body) [Known.bool, b]
  | case {scrutinee branches types} (distinct : (branches.map Branch.type).Nodup)
      (notSelf : ∀ branch ∈ branches, branch.name ≠ Known.self)
      (known : ∀ branch ∈ branches, h.isDefined branch.type = true) :
      SideCondition h current Γ (.case scrutinee branches) types
  | block {items types} : SideCondition h current Γ (.block items) types
  | letIn {x declared init body a t} (notSelf : x ≠ Known.self) (known : h.IsType declared)
      (fits : init.form ≠ .noExpr → h.Conforms current a declared) :
      SideCondition h current Γ (.letIn x declared init body) [a, t]
  | ints {op left right} (kind : op ≠ .equal) :
      SideCondition h current Γ (.binary op left right) [Known.int, Known.int]
  | equal {left right a b}
      (comparable : a ∈ [Known.int, Known.bool, Known.string] ∨
        b ∈ [Known.int, Known.bool, Known.string] → a = b) :
      SideCondition h current Γ (.binary .equal left right) [a, b]
  | negate {operand} : SideCondition h current Γ (.negate operand) [Known.int]
  | complement {operand} : SideCondition h current Γ (.complement operand) [Known.bool]
  | int {value} : SideCondition h current Γ (.int value) []
  | bool {value} : SideCondition h current Γ (.bool value) []
  | string {value} : SideCondition h current Γ (.string value) []
  | new {t} (known : h.IsType t) : SideCondition h current Γ (.new t) []
  | isVoid {operand a} : SideCondition h current Γ (.isVoid operand) [a]
  | noExpr : SideCondition h current Γ .noExpr []

/-! ## The relation -/

/-- An expression has a type: its parts have theirs, each in the scope of its binder, and the rule
for its kind leads from these to the type of the whole.  The initializer of a `let` is a part
without a binder, so it is typed outside the scope of the variable. -/
inductive HasType (h : Hierarchy) (current : Name) : TypeEnv → Expr → Name → Prop
  | node {Γ : TypeEnv} {line : Nat} {form : Form} {t : Name} (types : Part → Name)
      (parts : ∀ part ∈ form.parts,
        HasType h current (Γ.under part.binder) part.expr (types part))
      (rule : Rule h current Γ form (form.parts.map types) t) : HasType h current Γ ⟨line, form⟩ t

/-- The rules are kept at every node of an expression. -/
def RulesKept (h : Hierarchy) (current : Name) (Γ : TypeEnv) (e : Expr) : Prop :=
  ∀ path binders node types, e.at? path = some (binders, node) →
    (∀ part ∈ node.form.parts,
      HasType h current ((Γ.bindAll binders).under part.binder) part.expr (types part)) →
    SideCondition h current (Γ.bindAll binders) node.form (node.form.parts.map types)

variable {h : Hierarchy} {current : Name} {Γ : TypeEnv} {form : Form} {types : List Name}

/-! ## Inversion -/

namespace SideCondition

variable {a b c r : Name} {e e' e'' : Expr} {items : List Expr} {branches : List Branch}
  {x method named declared : Name}

theorem assign_iff :
    SideCondition h current Γ (.assign x e) [a] ↔
      x ≠ Known.self ∧ ∃ t, Γ x = some t ∧ h.Conforms current a t := by
  constructor
  · intro side
    cases side with
    | assign target bound fits => exact ⟨target, _, bound, fits⟩
  · rintro ⟨target, t, bound, fits⟩
    exact .assign target bound fits

theorem dispatch_iff :
    SideCondition h current Γ (.dispatch e method items) (r :: types) ↔
      (h.isDefined (Name.resolve current r) = true →
        h.CallFits current (Name.resolve current r) method types) := by
  constructor
  · intro side
    cases side with
    | dispatch fits => exact fits
  · exact .dispatch

theorem staticDispatch_iff :
    SideCondition h current Γ (.staticDispatch e named method items) (r :: types) ↔
      h.isDefined named = true ∧ h.Conforms current r named ∧
        h.CallFits current named method types := by
  constructor
  · intro side
    cases side with
    | staticDispatch known receiverFits fits => exact ⟨known, receiverFits, fits⟩
  · rintro ⟨known, receiverFits, fits⟩
    exact .staticDispatch known receiverFits fits

theorem cond_iff : SideCondition h current Γ (.cond e e' e'') [a, b, c] ↔ a = Known.bool := by
  constructor
  · rintro ⟨⟩
    rfl
  · rintro rfl
    exact .cond

theorem loop_iff : SideCondition h current Γ (.loop e e') [a, b] ↔ a = Known.bool := by
  constructor
  · rintro ⟨⟩
    rfl
  · rintro rfl
    exact .loop

theorem case_iff :
    SideCondition h current Γ (.case e branches) types ↔
      (branches.map Branch.type).Nodup ∧ (∀ branch ∈ branches, branch.name ≠ Known.self) ∧
        ∀ branch ∈ branches, h.isDefined branch.type = true := by
  constructor
  · intro side
    cases side with
    | case distinct notSelf known => exact ⟨distinct, notSelf, known⟩
  · rintro ⟨distinct, notSelf, known⟩
    exact .case distinct notSelf known

theorem letIn_iff :
    SideCondition h current Γ (.letIn x declared e e') [a, b] ↔
      x ≠ Known.self ∧ h.IsType declared ∧
        (e.form ≠ .noExpr → h.Conforms current a declared) := by
  constructor
  · intro side
    cases side with
    | letIn notSelf known fits => exact ⟨notSelf, known, fits⟩
  · rintro ⟨notSelf, known, fits⟩
    exact .letIn notSelf known fits

theorem negate_iff : SideCondition h current Γ (.negate e) [a] ↔ a = Known.int := by
  constructor
  · rintro ⟨⟩
    rfl
  · rintro rfl
    exact .negate

theorem complement_iff : SideCondition h current Γ (.complement e) [a] ↔ a = Known.bool := by
  constructor
  · rintro ⟨⟩
    rfl
  · rintro rfl
    exact .complement

end SideCondition

/-! ## Uniqueness -/

theorem Hierarchy.Joins.unique (rooted : h.Rooted) {a b c d : Name} (hc : h.Joins current a b c)
    (hd : h.Joins current a b d) : c = d := by
  cases hc with
  | same =>
    cases hd with
    | same => rfl
    | unknown differ | least differ => exact absurd rfl differ
  | unknown differ unknown =>
    cases hd with
    | same => exact absurd rfl differ
    | unknown => rfl
    | least _ ha hb => exact absurd unknown (by simp [ha, hb])
  | least differ ha hb left right least =>
    cases hd with
    | same => exact absurd rfl differ
    | unknown _ unknown => exact absurd unknown (by simp [ha, hb])
    | least _ _ _ left' right' least' =>
      exact Hierarchy.below_antisymm rooted (least d left' right') (least' c left right)

theorem Hierarchy.JoinsFrom.unique (rooted : h.Rooted) {a c d : Name}
    (hc : h.JoinsFrom current a types c) (hd : h.JoinsFrom current a types d) : c = d := by
  induction hc with
  | nil =>
    cases hd
    rfl
  | cons first _ ih =>
    cases hd with
    | cons first' others' =>
      rw [← first.unique rooted first'] at others'
      exact ih others'

theorem Hierarchy.JoinsAll.unique (rooted : h.Rooted) {c d : Name}
    (hc : h.JoinsAll current types c) (hd : h.JoinsAll current types d) : c = d := by
  cases hc with
  | none =>
    cases hd
    rfl
  | some joins =>
    cases hd with
    | some joins' => exact joins.unique rooted joins'

theorem Hierarchy.Resolves.unique {method a : Name} {m m' : MethodSignature}
    (hm : h.Resolves method a m) (hm' : h.Resolves method a m') : m = m' := by
  induction hm with
  | own found first =>
    cases hm' with
    | own found' first' =>
      rw [found, Option.some.injEq] at found'
      rw [found', first', Option.some.injEq] at first
      exact first.symm
    | inherited found' missing =>
      rw [found, Option.some.injEq] at found'
      rw [found', missing] at first
      exact absurd first (by simp)
  | inherited found missing link _ ih =>
    cases hm' with
    | own found' first' =>
      rw [found, Option.some.injEq] at found'
      rw [found', first'] at missing
      exact absurd missing (by simp)
    | inherited found' _ link' above' =>
      rw [found, Option.some.injEq] at found'
      rw [found', link', Option.some.injEq] at link
      rw [link] at above'
      exact ih above'

theorem Hierarchy.CallType.unique {start method receiver t t' : Name}
    (ht : h.CallType start method receiver t) (ht' : h.CallType start method receiver t') :
    t = t' := by
  cases ht with
  | found declared =>
    cases ht' with
    | found declared' => rw [declared.unique declared']
    | missing none => exact absurd declared (none _)
  | missing none =>
    cases ht' with
    | found declared' => exact absurd declared' (none _)
    | missing => rfl

/-- No operator both computes a number and compares. -/
theorem Operator.not_comparison {op : Operator} (kind : op ∈ [.plus, .minus, .times, .divide]) :
    op ∉ [.less, .lessOrEqual, .equal] := by
  revert kind
  cases op <;> decide

/-- The rules do not overlap. -/
theorem Rule.unique (rooted : h.Rooted) {t t' : Name} (ht : Rule h current Γ form types t)
    (ht' : Rule h current Γ form types t') : t = t' := by
  cases ht with
  | object bound | objectUndeclared bound =>
    cases ht' <;> simp_all
  | assign | assignSelf | assignUndeclared | assignMismatch =>
    cases ht' <;> simp_all
  | dispatch call =>
    cases ht' with
    | dispatch call' => exact call.unique call'
  | staticDispatch call =>
    cases ht' with
    | staticDispatch call' => exact call.unique call'
  | cond join =>
    cases ht' with
    | cond join' => exact join.unique rooted join'
  | case join =>
    cases ht' with
    | case join' => exact join.unique rooted join'
  | arithmetic kind =>
    cases ht' with
    | arithmetic => rfl
    | arithmeticMismatch _ mismatch => exact absurd ⟨rfl, rfl⟩ mismatch
    | comparison kind' => exact absurd kind' (Operator.not_comparison kind)
  | arithmeticMismatch kind mismatch =>
    cases ht' with
    | arithmetic => exact absurd ⟨rfl, rfl⟩ mismatch
    | arithmeticMismatch => rfl
    | comparison kind' => exact absurd kind' (Operator.not_comparison kind)
  | comparison kind =>
    cases ht' with
    | arithmetic kind' | arithmeticMismatch kind' =>
      exact absurd kind (Operator.not_comparison kind')
    | comparison => rfl
  | new | newUnknown =>
    cases ht' <;> simp_all
  | loop | block | letIn | negate | complement | int | bool | string | isVoid | noExpr =>
    cases ht'
    rfl

/-- **An expression has one type.** -/
theorem HasType.unique (rooted : h.Rooted) {e : Expr} {t t' : Name}
    (ht : HasType h current Γ e t) (ht' : HasType h current Γ e t') : t = t' := by
  induction ht generalizing t' with
  | node types parts rule ih =>
    cases ht' with
    | node types' parts' rule' =>
      rw [List.map_congr_left fun part mem => ih part mem (parts' part mem)] at rule
      exact rule.unique rooted rule'

/-- The rules are kept in an expression where they are kept at its root and in its parts. -/
theorem rulesKept_iff {line : Nat} :
    RulesKept h current Γ ⟨line, form⟩ ↔
      (∀ types, (∀ part ∈ form.parts,
          HasType h current (Γ.under part.binder) part.expr (types part)) →
        SideCondition h current Γ form (form.parts.map types)) ∧
      ∀ part ∈ form.parts, RulesKept h current (Γ.under part.binder) part.expr := by
  constructor
  · intro kept
    refine ⟨fun types typed => kept [] [] ⟨line, form⟩ types rfl typed, ?_⟩
    intro part mem path inner node types found typed
    obtain ⟨i, hpart⟩ := List.getElem?_of_mem mem
    rw [← TypeEnv.bindAll_under] at typed ⊢
    exact kept (i :: path) _ node types (Expr.at?_cons.mpr ⟨part, inner, hpart, found, rfl⟩) typed
  · rintro ⟨root, below⟩ path binders node types found typed
    cases path with
    | nil =>
      rw [Expr.at?, Option.some.injEq, Prod.mk.injEq] at found
      obtain ⟨rfl, rfl⟩ := found
      exact root types typed
    | cons i path =>
      obtain ⟨part, inner, hpart, hnode, rfl⟩ := Expr.at?_cons.mp found
      rw [TypeEnv.bindAll_under] at typed ⊢
      exact below part (List.mem_of_getElem? hpart) path inner node types hnode typed

end SelfTyped
