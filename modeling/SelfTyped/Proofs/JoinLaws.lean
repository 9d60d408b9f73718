/-
SelfTyped.Proofs.JoinLaws — the join of the checker is a join on all names.

The join of a hierarchy is one of classes.  The checker joins whatever names
come up as types: `SELF_TYPE`, the type of a missing expression, and names
of classes that do not exist.  A join of equal names is this name, and any
other join is a class.

This is a least upper bound in an order on all names (`Setting.Under`).
Classes are ordered as in the hierarchy.  `SELF_TYPE` sits below the current
class, a name that is no type sits below `Object`, and nothing but itself is
below either.  The laws of a join are proved from that (`join_laws`).
-/
import SelfTyped.Proofs.RuleCheck
import SelfTyped.Typing.Checker

namespace SelfTyped

namespace Setting

variable {g : Setting} {a b c : Name}

/-! ## An order on all names -/

/-- The class that a type stands for, or `Object` for a name that is no type. -/
def classOf (g : Setting) (a : Name) : Name :=
  if g.isDeclarable a then Name.resolve g.current.name a else Known.object

/-- A name is at or below another one. -/
def Under (g : Setting) (a b : Name) : Prop :=
  a = b ∨ g.hierarchy.isDefined b = true ∧ g.hierarchy.Below (g.classOf a) b

theorem classOf_isDefined (proper : g.Proper) (a : Name) :
    g.hierarchy.isDefined (g.classOf a) = true := by
  unfold classOf
  split
  · next exist => exact (Hierarchy.isType_iff proper.known).mp (isDeclarable_iff.mp exist)
  · exact proper.rooted.object

theorem classOf_of_isDefined (proper : g.Proper) (defined : g.hierarchy.isDefined a = true) :
    g.classOf a = a := by
  have exist : g.isDeclarable a = true := isDeclarable_iff.mpr (Or.inr defined)
  rw [classOf, if_pos exist]
  exact Hierarchy.resolve_of_isDefined proper.rooted defined

theorem classOf_of_isType (exist : g.hierarchy.IsType a) :
    g.classOf a = Name.resolve g.current.name a := by
  rw [classOf, if_pos (isDeclarable_iff.mpr exist)]

theorem classOf_of_unknown (unknown : ¬ g.hierarchy.IsType a) : g.classOf a = Known.object := by
  rw [classOf, if_neg fun exist => unknown (isDeclarable_iff.mp exist)]

theorem under_refl (g : Setting) (a : Name) : g.Under a a :=
  Or.inl rfl

/-- What is below a class is what stands for a class below it. -/
theorem under_iff (proper : g.Proper) (defined : g.hierarchy.isDefined b = true) :
    g.Under a b ↔ g.hierarchy.Below (g.classOf a) b := by
  constructor
  · rintro (rfl | ⟨-, below⟩)
    · rw [classOf_of_isDefined proper defined]
      exact Relation.ReflTransGen.refl
    · exact below
  · intro below
    exact Or.inr ⟨defined, below⟩

theorem under_trans (proper : g.Proper) (first : g.Under a b) (second : g.Under b c) :
    g.Under a c := by
  rcases first with rfl | ⟨defined, below⟩
  · exact second
  · rcases second with rfl | ⟨defined', below'⟩
    · exact Or.inr ⟨defined, below⟩
    · rw [classOf_of_isDefined proper defined] at below'
      exact Or.inr ⟨defined', below.trans below'⟩

theorem under_antisymm (proper : g.Proper) (there : g.Under a b) (back : g.Under b a) : a = b := by
  rcases there with same | ⟨defined, below⟩
  · exact same
  · rcases back with same | ⟨defined', below'⟩
    · exact same.symm
    · rw [classOf_of_isDefined proper defined'] at below
      rw [classOf_of_isDefined proper defined] at below'
      exact Hierarchy.below_antisymm proper.rooted below below'

/-! ## Least upper bounds -/

/-- A name is the least one above two others. -/
structure IsJoin (g : Setting) (a b c : Name) : Prop where
  left : g.Under a c
  right : g.Under b c
  least : ∀ d, g.Under a d → g.Under b d → g.Under c d

/-- The join of different names is the least class above their classes. -/
theorem join_of_ne (proper : g.Proper) (differ : a ≠ b) :
    g.hierarchy.isDefined (g.join a b) = true ∧
      g.hierarchy.Below (g.classOf a) (g.join a b) ∧
      g.hierarchy.Below (g.classOf b) (g.join a b) ∧
      ∀ d, g.hierarchy.Below (g.classOf a) d → g.hierarchy.Below (g.classOf b) d →
        g.hierarchy.Below (g.join a b) d := by
  rw [join, if_neg differ]
  refine ⟨Hierarchy.join_isDefined proper.rooted, ?_⟩
  by_cases exist : g.hierarchy.IsType a ∧ g.hierarchy.IsType b
  · obtain ⟨ha, hb⟩ := exist
    rw [classOf_of_isType ha, classOf_of_isType hb]
    exact Hierarchy.join_spec proper.rooted ((Hierarchy.isType_iff proper.known).mp ha)
      ((Hierarchy.isType_iff proper.known).mp hb)
  · -- one of the names is no type, and stands for `Object`
    rw [not_and_or] at exist
    rw [(Hierarchy.subtypingLaws_of_rooted proper.rooted proper.known).joinUnknown a b exist]
    refine ⟨Hierarchy.below_object proper.rooted (classOf_isDefined proper a),
      Hierarchy.below_object proper.rooted (classOf_isDefined proper b), fun d left right => ?_⟩
    rcases exist with unknown | unknown
    · rw [classOf_of_unknown unknown] at left
      exact left
    · rw [classOf_of_unknown unknown] at right
      exact right

/-- **The join of two names is the least name above both.** -/
theorem join_isJoin (proper : g.Proper) (a b : Name) : g.IsJoin a b (g.join a b) := by
  by_cases same : a = b
  · rw [same, join, if_pos rfl]
    exact ⟨under_refl g b, under_refl g b, fun _ above _ => above⟩
  · obtain ⟨defined, left, right, least⟩ := join_of_ne proper same
    refine ⟨Or.inr ⟨defined, left⟩, Or.inr ⟨defined, right⟩, fun d above above' => ?_⟩
    -- only a class is above two different names
    have defined' : g.hierarchy.isDefined d = true := by
      rcases above with rfl | ⟨known, -⟩
      · rcases above' with same' | ⟨known, -⟩
        · exact absurd same'.symm same
        · exact known
      · exact known
    rw [under_iff proper defined'] at above above' ⊢
    rw [classOf_of_isDefined proper defined]
    exact least d above above'

theorem join_self (g : Setting) (a : Name) : g.join a a = a := by
  rw [join, if_pos rfl]

theorem join_comm (proper : g.Proper) (a b : Name) : g.join a b = g.join b a := by
  have ab := join_isJoin proper a b
  have ba := join_isJoin proper b a
  exact under_antisymm proper (ab.least _ ba.right ba.left) (ba.least _ ab.right ab.left)

theorem join_assoc (proper : g.Proper) (a b c : Name) :
    g.join (g.join a b) c = g.join a (g.join b c) := by
  have ab := join_isJoin proper a b
  have bc := join_isJoin proper b c
  have ab_c := join_isJoin proper (g.join a b) c
  have a_bc := join_isJoin proper a (g.join b c)
  refine under_antisymm proper (ab_c.least _ (ab.least _ a_bc.left ?_) ?_)
    (a_bc.least _ ?_ (bc.least _ ?_ ab_c.right))
  · exact under_trans proper bc.left a_bc.right
  · exact under_trans proper bc.right a_bc.right
  · exact under_trans proper ab.left ab_c.left
  · exact under_trans proper ab.right ab_c.left

/-- A type conforms to its join with any name. -/
theorem conforms_join (proper : g.Proper) (a b : Name) : g.conforms a (g.join a b) = true := by
  rw [conforms_iff proper]
  by_cases exist : g.hierarchy.IsType a
  · refine Or.inr (Or.inr ?_)
    by_cases same : a = b
    · rw [← same, join_self]
      exact Relation.ReflTransGen.refl
    · obtain ⟨defined, left, -, -⟩ := join_of_ne proper same
      rw [classOf_of_isType exist] at left
      rw [Hierarchy.resolve_of_isDefined proper.rooted defined]
      exact left
  · exact Or.inl exist

/-- What holds of the join of a setting, for all names. -/
structure JoinLaws (g : Setting) : Prop where
  idem : ∀ a, g.join a a = a
  comm : ∀ a b, g.join a b = g.join b a
  assoc : ∀ a b c, g.join (g.join a b) c = g.join a (g.join b c)
  conforms_left : ∀ a b, g.conforms a (g.join a b) = true
  conforms_right : ∀ a b, g.conforms b (g.join a b) = true

/-- The join is that of a semilattice, and both sides conform to it. -/
theorem join_laws (proper : g.Proper) : g.JoinLaws where
  idem := join_self g
  comm := join_comm proper
  assoc := join_assoc proper
  conforms_left := conforms_join proper
  conforms_right := by
    intro a b
    rw [join_comm proper a b]
    exact conforms_join proper b a

/-! ## Joins of many names -/

/-- The order of two branches plays no part in the join of all. -/
theorem joinBranch_right_comm (laws : g.JoinLaws) (joined : Option Name) (a b : Name) :
    g.joinBranch (some (g.joinBranch joined a)) b =
      g.joinBranch (some (g.joinBranch joined b)) a := by
  cases joined with
  | none => exact laws.comm a b
  | some earlier =>
    calc g.join (g.join earlier a) b = g.join earlier (g.join a b) := laws.assoc earlier a b
      _ = g.join earlier (g.join b a) := by rw [laws.comm a b]
      _ = g.join (g.join earlier b) a := (laws.assoc earlier b a).symm

/-- The join of types from left to right, if there are any. -/
def joinAll (g : Setting) (types : List Name) : Option Name :=
  types.foldl (fun joined type => some (g.joinBranch joined type)) none

/-- **The order of types plays no part in their join.** -/
theorem joinAll_perm (laws : g.JoinLaws) {types types' : List Name} (perm : types.Perm types') :
    g.joinAll types = g.joinAll types' :=
  perm.foldl_eq' (fun a _ b _ joined => congrArg some (joinBranch_right_comm laws joined a b)) none

end Setting

end SelfTyped
