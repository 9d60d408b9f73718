/-
SelfTyped.Proofs.Subtyping — conformance is a partial order with joins.

In a rooted hierarchy, and inside a class that is known, conformance is
reachability along parent links once `SELF_TYPE` is replaced by the class
(`isSubclass_iff`).  `join_spec` says which class a join is: the first one
on the way up from one side that the other side is below.  Two classes
above one class are comparable, so this first one is the least.

`subtyping_laws` collects the laws for every hierarchy that a program can
meet: the built-in classes alone, and every hierarchy that was built.
-/
import SelfTyped.Proofs.HierarchyBuild

namespace SelfTyped

namespace Hierarchy

variable {h : Hierarchy} {current a b c t : Name}

/-- A hierarchy that is handed out: the built-in classes alone, or that of a program. -/
def Provided (h : Hierarchy) : Prop :=
  h = builtin ∨ ∃ p, build p = .ok h

/-- A type that exists: a known class or `SELF_TYPE`. -/
def IsType (h : Hierarchy) (a : Name) : Prop :=
  a = Known.selfType ∨ h.isDefined a = true

theorem Provided.rooted (provided : h.Provided) : h.Rooted := by
  rcases provided with rfl | ⟨p, built⟩
  · exact builtin_rooted
  · exact build_rooted built

/-! ## Conformance -/

/-- The types that exist are those that stand for a known class. -/
theorem isType_iff (known : h.isDefined current = true) :
    h.IsType a ↔ h.isDefined (Name.resolve current a) = true := by
  rw [IsType, Name.resolve]
  by_cases isSelfType : a = Known.selfType
  · simp [isSelfType, known]
  · simp [isSelfType]

theorem resolve_of_isDefined (rooted : h.Rooted) (defined : h.isDefined a = true) :
    Name.resolve current a = a := by
  rw [Name.resolve, if_neg]
  rintro rfl
  rw [rooted.selfType] at defined
  exact absurd defined (by simp)

theorem isSubclass_iff (rooted : h.Rooted) :
    h.isSubclass current a b = true ↔
      h.isDefined (Name.resolve current a) = true ∧
        h.Below (Name.resolve current a) (Name.resolve current b) := by
  rw [isSubclass, List.any_eq_true]
  simp only [beq_iff_eq]
  cases defined : h.isDefined (Name.resolve current a) with
  | true => rw [mem_ancestors_iff rooted defined, and_iff_right rfl]
  | false => simp [ancestors_unknown defined]

/-! ## Joins -/

/-- The join of two types of which one does not exist. -/
theorem join_unknown (rooted : h.Rooted)
    (unknown : h.isDefined (Name.resolve current a) = false ∨
      h.isDefined (Name.resolve current b) = false) :
    h.join current a b = Known.object := by
  rw [join]
  rcases unknown with unknown | unknown
  · rw [ancestors_unknown unknown]
    rfl
  · rw [List.find?_eq_none.mpr]
    · rfl
    · intro candidate _ conforms
      rw [isSubclass_iff rooted, unknown] at conforms
      exact absurd conforms.1 (by simp)

/-- The join of two classes is above both, and below all that is above both. -/
theorem join_spec (rooted : h.Rooted) (ha : h.isDefined (Name.resolve current a) = true)
    (hb : h.isDefined (Name.resolve current b) = true) :
    h.Below (Name.resolve current a) (h.join current a b) ∧
      h.Below (Name.resolve current b) (h.join current a b) ∧
      ∀ t, h.Below (Name.resolve current a) t → h.Below (Name.resolve current b) t →
        h.Below (h.join current a b) t := by
  -- a candidate is known, so it stands for itself
  have accepted : ∀ t, h.Below (Name.resolve current a) t →
      (h.isSubclass current b t = true ↔ h.Below (Name.resolve current b) t) := by
    intro t above
    rw [isSubclass_iff rooted, and_iff_right hb,
      resolve_of_isDefined rooted (above.isDefined rooted ha)]
  rw [join]
  cases found : ((h.ancestors (Name.resolve current a)).map ClassSignature.name).find?
      fun candidate => h.isSubclass current b candidate with
  | none =>
    obtain ⟨root, hroot, isObject⟩ := (mem_ancestors_iff rooted ha).mpr (below_object rooted ha)
    have rejected := List.find?_eq_none.mp found Known.object
      (List.mem_map.mpr ⟨root, hroot, isObject⟩)
    rw [accepted _ (below_object rooted ha)] at rejected
    exact absurd (below_object rooted hb) rejected
  | some t =>
    rw [Option.getD_some]
    obtain ⟨holds, before, after, split, skipped⟩ := List.find?_eq_some_iff_append.mp found
    have mem : ∀ u, u ∈ (h.ancestors (Name.resolve current a)).map ClassSignature.name ↔
        h.Below (Name.resolve current a) u := by
      intro u
      rw [List.mem_map, mem_ancestors_iff rooted ha]
    have above : h.Below (Name.resolve current a) t := by
      rw [← mem, split]
      exact List.mem_append_right _ List.mem_cons_self
    refine ⟨above, (accepted t above).mp holds, ?_⟩
    intro u hau hbu
    have ordered : ((h.ancestors (Name.resolve current a)).map ClassSignature.name).Pairwise
        (Relation.TransGen h.Extends) := by
      rw [List.pairwise_map]
      exact ancestorsWithin_pairwise _ _
    rw [split, List.pairwise_append, List.pairwise_cons] at ordered
    have hu := (mem u).mpr hau
    rw [split, List.mem_append, List.mem_cons] at hu
    rcases hu with early | rfl | late
    · -- a class before `t` on the way up was not accepted
      have rejected := skipped u early
      rw [(accepted u hau).mpr hbu] at rejected
      exact absurd rejected (by simp)
    · exact Relation.ReflTransGen.refl
    · exact (ordered.2.1.1 u late).to_reflTransGen

theorem join_isDefined (rooted : h.Rooted) : h.isDefined (h.join current a b) = true := by
  cases ha : h.isDefined (Name.resolve current a) with
  | false =>
    rw [join_unknown rooted (Or.inl ha)]
    exact rooted.object
  | true =>
    cases hb : h.isDefined (Name.resolve current b) with
    | false =>
      rw [join_unknown rooted (Or.inr hb)]
      exact rooted.object
    | true => exact (join_spec rooted ha hb).1.isDefined rooted ha

/-- There is one least upper bound. -/
theorem join_comm (rooted : h.Rooted) : h.join current a b = h.join current b a := by
  cases ha : h.isDefined (Name.resolve current a) with
  | false => rw [join_unknown rooted (Or.inl ha), join_unknown rooted (Or.inr ha)]
  | true =>
    cases hb : h.isDefined (Name.resolve current b) with
    | false => rw [join_unknown rooted (Or.inr hb), join_unknown rooted (Or.inl hb)]
    | true =>
      obtain ⟨haj, hbj, least⟩ := join_spec rooted ha hb
      obtain ⟨hbj', haj', least'⟩ := join_spec rooted hb ha
      exact below_antisymm rooted (least _ haj' hbj') (least' _ hbj haj)

/-! ## The main statement -/

/-- The laws of conformance and joins inside the class `current`. -/
structure SubtypingLaws (h : Hierarchy) (current : Name) : Prop where
  /-- The ancestors of a class are the whole way up to `Object`, no class twice. -/
  complete : ∀ a, h.isDefined a = true →
    h.WayUp a (h.ancestors a) ∧
      (h.ancestors a).getLast?.map ClassSignature.name = some Known.object ∧
      ((h.ancestors a).map ClassSignature.name).Nodup
  /-- Conformance is reachability along parent links. -/
  reachable : ∀ a b, h.IsType a → h.IsType b →
    (h.isSubclass current a b = true ↔
      h.Below (Name.resolve current a) (Name.resolve current b))
  refl : ∀ a, h.IsType a → h.isSubclass current a a = true
  trans : ∀ a b c, h.IsType a → h.IsType b → h.IsType c →
    h.isSubclass current a b = true → h.isSubclass current b c = true →
      h.isSubclass current a c = true
  antisymm : ∀ a b, h.IsType a → h.IsType b →
    h.isSubclass current a b = true → h.isSubclass current b a = true →
      Name.resolve current a = Name.resolve current b
  greatest : ∀ a, h.IsType a → h.isSubclass current a Known.object = true
  joinLeft : ∀ a b, h.IsType a → h.IsType b →
    h.isSubclass current a (h.join current a b) = true
  joinRight : ∀ a b, h.IsType a → h.IsType b →
    h.isSubclass current b (h.join current a b) = true
  joinLeast : ∀ a b c, h.IsType a → h.IsType b → h.IsType c →
    h.isSubclass current a c = true → h.isSubclass current b c = true →
      h.isSubclass current (h.join current a b) c = true
  joinComm : ∀ a b, h.join current a b = h.join current b a
  joinUnknown : ∀ a b, ¬ h.IsType a ∨ ¬ h.IsType b → h.join current a b = Known.object

theorem subtypingLaws_of_rooted (rooted : h.Rooted) (known : h.isDefined current = true) :
    h.SubtypingLaws current where
  complete := by
    intro a defined
    have way := ancestors_wayUp rooted defined
    exact ⟨way, way.last rooted, ancestorsWithin_distinct rooted _ _⟩
  reachable := by
    intro a b ha _
    rw [isSubclass_iff rooted, and_iff_right ((isType_iff known).mp ha)]
  refl := by
    intro a ha
    exact (isSubclass_iff rooted).mpr ⟨(isType_iff known).mp ha, Relation.ReflTransGen.refl⟩
  trans := by
    intro a b c _ _ _ hab hbc
    rw [isSubclass_iff rooted] at hab hbc ⊢
    exact ⟨hab.1, hab.2.trans hbc.2⟩
  antisymm := by
    intro a b _ _ hab hba
    rw [isSubclass_iff rooted] at hab hba
    exact below_antisymm rooted hab.2 hba.2
  greatest := by
    intro a ha
    have ha := (isType_iff known).mp ha
    rw [isSubclass_iff rooted, resolve_of_isDefined rooted rooted.object]
    exact ⟨ha, below_object rooted ha⟩
  joinLeft := by
    intro a b ha hb
    have ha := (isType_iff known).mp ha
    rw [isSubclass_iff rooted, resolve_of_isDefined rooted (join_isDefined rooted)]
    exact ⟨ha, (join_spec rooted ha ((isType_iff known).mp hb)).1⟩
  joinRight := by
    intro a b ha hb
    have hb := (isType_iff known).mp hb
    rw [isSubclass_iff rooted, resolve_of_isDefined rooted (join_isDefined rooted)]
    exact ⟨hb, (join_spec rooted ((isType_iff known).mp ha) hb).2.1⟩
  joinLeast := by
    intro a b c ha hb _ hac hbc
    rw [isSubclass_iff rooted] at hac hbc
    rw [isSubclass_iff rooted, resolve_of_isDefined rooted (join_isDefined rooted)]
    exact ⟨join_isDefined rooted, (join_spec rooted hac.1 hbc.1).2.2 _ hac.2 hbc.2⟩
  joinComm := by
    intro a b
    exact join_comm rooted
  joinUnknown := by
    intro a b unknown
    rw [isType_iff known, isType_iff known, Bool.not_eq_true, Bool.not_eq_true] at unknown
    exact join_unknown rooted unknown

/-- **Subtyping is a partial order with joins**, up to `SELF_TYPE` standing for the current class,
in every hierarchy that is handed out and inside every class of it. -/
theorem subtyping_laws (provided : h.Provided) (known : h.isDefined current = true) :
    h.SubtypingLaws current :=
  subtypingLaws_of_rooted provided.rooted known

/-- Two branches below `Main`, and the class `A` inside which `SELF_TYPE` is used. -/
theorem subtyping_laws_branches :
    ∃ h, build ⟨[⟨1, "Main", "IO", "ab.cl", []⟩, ⟨2, "A", "Main", "ab.cl", []⟩,
        ⟨3, "B", "Main", "ab.cl", []⟩]⟩ = .ok h ∧
      h.isDefined "A" = true ∧ h.join "A" Known.selfType "B" = "Main" ∧ h.SubtypingLaws "A" := by
  have built : build ⟨[⟨1, "Main", "IO", "ab.cl", []⟩, ⟨2, "A", "Main", "ab.cl", []⟩,
      ⟨3, "B", "Main", "ab.cl", []⟩]⟩ = .ok _ := rfl
  exact ⟨_, built, by decide, by decide, subtyping_laws (Or.inr ⟨_, built⟩) (by decide)⟩

end Hierarchy

end SelfTyped
