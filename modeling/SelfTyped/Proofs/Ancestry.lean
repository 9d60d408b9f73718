/-
SelfTyped.Proofs.Ancestry — the way up from a class.

A hierarchy is seen here as a graph of parent links (`Extends`), and
`Below` is reachability in it.  `Rooted` collects what holds of the
built-in classes and of every hierarchy that was built: names are
distinct, parents are known, only `Object` has none, and no class is its
own ancestor.

The main statement is `ancestors_wayUp`: in a rooted hierarchy the walk
`ancestors`, though bounded, goes all the way up to `Object`.  The
classes on the way are pairwise linked, hence distinct, hence at most as
many as there are classes, so the bound is never met.
-/
import Mathlib.Data.List.Nodup
import Mathlib.Data.List.Perm.Subperm
import Mathlib.Logic.Relation
import SelfTyped.Hierarchy.Basic

namespace SelfTyped

namespace Hierarchy

variable {h : Hierarchy} {a b : Name} {c d : ClassSignature} {way : List ClassSignature}

/-! ## Parent links -/

/-- The class `a` is declared with the parent `b`. -/
def Extends (h : Hierarchy) (a b : Name) : Prop :=
  ∃ c ∈ h.classes, c.name = a ∧ c.parent = some b

/-- Parent links lead from `a` up to `b`, in any number of steps. -/
def Below (h : Hierarchy) : Name → Name → Prop :=
  Relation.ReflTransGen h.Extends

/-- The complete way up from a class to one without a parent, closest class first. -/
inductive WayUp (h : Hierarchy) : Name → List ClassSignature → Prop
  | root {a : Name} {c : ClassSignature} (found : h.find? a = some c) (top : c.parent = none) :
      WayUp h a [c]
  | step {a b : Name} {c : ClassSignature} {way : List ClassSignature}
      (found : h.find? a = some c) (link : c.parent = some b) (rest : WayUp h b way) :
      WayUp h a (c :: way)

/-- What holds of a hierarchy without faults. -/
structure Rooted (h : Hierarchy) : Prop where
  /-- Every class is known once. -/
  distinct : (h.classes.map ClassSignature.name).Nodup
  /-- Every parent is known. -/
  closed : ∀ a b, h.Extends a b → h.isDefined b = true
  /-- Only `Object` has no parent. -/
  top : ∀ c ∈ h.classes, c.parent = none ↔ c.name = Known.object
  object : h.isDefined Known.object = true
  /-- `SELF_TYPE` is not a class. -/
  selfType : h.isDefined Known.selfType = false
  /-- No class is its own ancestor. -/
  acyclic : ∀ a, ¬ Relation.TransGen h.Extends a a

/-! ## Finding classes -/

theorem find?_mem (found : h.find? a = some c) : c ∈ h.classes ∧ c.name = a := by
  have hname := List.find?_some found
  exact ⟨List.mem_of_find?_eq_some found, by simpa using hname⟩

theorem isDefined_iff_find? : h.isDefined a = true ↔ ∃ c, h.find? a = some c :=
  Option.isSome_iff_exists

theorem isDefined_iff_mem : h.isDefined a = true ↔ a ∈ h.classes.map ClassSignature.name := by
  rw [isDefined, find?, List.find?_isSome, List.mem_map]
  simp only [beq_iff_eq]

theorem isDefined_of_mem (hc : c ∈ h.classes) : h.isDefined c.name = true :=
  isDefined_iff_mem.mpr (List.mem_map_of_mem hc)

theorem find?_eq_none_iff : h.find? a = none ↔ h.isDefined a = false := by
  rw [isDefined, Option.isSome_eq_false_iff, Option.isNone_iff_eq_none]

/-- A class is found by its name where names are distinct. -/
theorem find?_name (distinct : (h.classes.map ClassSignature.name).Nodup) (hc : c ∈ h.classes) :
    h.find? c.name = some c := by
  obtain ⟨d, found⟩ := isDefined_iff_find?.mp (isDefined_of_mem hc)
  obtain ⟨hd, hname⟩ := find?_mem found
  rw [found, List.inj_on_of_nodup_map distinct hd hc hname]

theorem extends_of_find? (found : h.find? a = some c) (link : c.parent = some b) :
    h.Extends a b := by
  obtain ⟨hc, hname⟩ := find?_mem found
  exact ⟨c, hc, hname, link⟩

theorem Extends.isDefined (link : h.Extends a b) : h.isDefined a = true := by
  obtain ⟨c, hc, rfl, -⟩ := link
  exact isDefined_of_mem hc

theorem Extends.find? (distinct : (h.classes.map ClassSignature.name).Nodup)
    (link : h.Extends a b) : ∃ c, h.find? a = some c ∧ c.parent = some b := by
  obtain ⟨c, hc, rfl, hp⟩ := link
  exact ⟨c, find?_name distinct hc, hp⟩

/-- A class has one parent. -/
theorem extends_unique (distinct : (h.classes.map ClassSignature.name).Nodup) :
    Relator.RightUnique h.Extends := by
  intro a b b' link link'
  obtain ⟨c, found, hp⟩ := link.find? distinct
  obtain ⟨c', found', hp'⟩ := link'.find? distinct
  rw [found, Option.some.injEq] at found'
  subst found'
  rw [hp, Option.some.injEq] at hp'
  exact hp'

/-! ## The bounded walk -/

theorem ancestorsWithin_none (steps : Nat) : h.ancestorsWithin steps none = [] := by
  cases steps <;> rfl

theorem ancestorsWithin_found (steps : Nat) (found : h.find? a = some c) :
    h.ancestorsWithin (steps + 1) (some a) = c :: h.ancestorsWithin steps c.parent := by
  rw [ancestorsWithin, found]

theorem ancestorsWithin_unknown (steps : Nat) (unknown : h.isDefined a = false) :
    h.ancestorsWithin steps (some a) = [] := by
  cases steps with
  | zero => rfl
  | succ steps => rw [ancestorsWithin, find?_eq_none_iff.mpr unknown]

theorem ancestors_unknown (unknown : h.isDefined a = false) : h.ancestors a = [] :=
  ancestorsWithin_unknown _ unknown

/-- Everything the walk from `a` meets is above `a`. -/
theorem below_of_mem_ancestorsWithin (steps : Nat) (hc : c ∈ h.ancestorsWithin steps (some a)) :
    h.Below a c.name := by
  induction steps generalizing a with
  | zero => simp [ancestorsWithin] at hc
  | succ steps ih =>
    cases found : h.find? a with
    | none => simp [ancestorsWithin, found] at hc
    | some d =>
      rw [ancestorsWithin_found steps found, List.mem_cons] at hc
      rcases hc with rfl | hc
      · rw [(find?_mem found).2]
        exact Relation.ReflTransGen.refl
      · cases link : d.parent with
        | none => simp [link, ancestorsWithin_none] at hc
        | some b =>
          rw [link] at hc
          exact Relation.ReflTransGen.head (extends_of_find? found link) (ih hc)

/-- A class on the walk is strictly above those met before it. -/
theorem ancestorsWithin_pairwise (steps : Nat) (start : Option Name) :
    (h.ancestorsWithin steps start).Pairwise
      fun c d => Relation.TransGen h.Extends c.name d.name := by
  induction steps generalizing start with
  | zero => exact List.Pairwise.nil
  | succ steps ih =>
    match start with
    | none => exact List.Pairwise.nil
    | some a =>
      cases found : h.find? a with
      | none => simp [ancestorsWithin, found]
      | some c =>
        rw [ancestorsWithin_found steps found, List.pairwise_cons]
        refine ⟨fun d hd => ?_, ih _⟩
        cases link : c.parent with
        | none => simp [link, ancestorsWithin_none] at hd
        | some b =>
          rw [link] at hd
          rw [(find?_mem found).2]
          exact Relation.TransGen.head' (extends_of_find? found link)
            (below_of_mem_ancestorsWithin steps hd)

theorem mem_of_mem_ancestorsWithin (steps : Nat) (start : Option Name)
    (hc : c ∈ h.ancestorsWithin steps start) : c ∈ h.classes := by
  induction steps generalizing start with
  | zero => simp [ancestorsWithin] at hc
  | succ steps ih =>
    match start with
    | none => simp [ancestorsWithin] at hc
    | some a =>
      cases found : h.find? a with
      | none => simp [ancestorsWithin, found] at hc
      | some d =>
        rw [ancestorsWithin_found steps found, List.mem_cons] at hc
        rcases hc with rfl | hc
        · exact (find?_mem found).1
        · exact ih _ hc

/-- The walk meets no class twice. -/
theorem ancestorsWithin_distinct (rooted : h.Rooted) (steps : Nat) (start : Option Name) :
    ((h.ancestorsWithin steps start).map ClassSignature.name).Nodup := by
  rw [List.Nodup, List.pairwise_map]
  refine (ancestorsWithin_pairwise steps start).imp ?_
  intro c d link same
  rw [same] at link
  exact rooted.acyclic _ link

theorem length_ancestorsWithin_le (rooted : h.Rooted) (steps : Nat) (start : Option Name) :
    (h.ancestorsWithin steps start).length ≤ h.classes.length := by
  have sub : (h.ancestorsWithin steps start).map ClassSignature.name ⊆
      h.classes.map ClassSignature.name := by
    intro name hname
    obtain ⟨c, hc, rfl⟩ := List.mem_map.mp hname
    exact List.mem_map_of_mem (mem_of_mem_ancestorsWithin steps start hc)
  have hle := ((ancestorsWithin_distinct rooted steps start).subperm sub).length_le
  simpa using hle

/-- A walk that is cut short has used up its bound. -/
theorem wayUp_or_length (rooted : h.Rooted) (steps : Nat) (defined : h.isDefined a = true) :
    h.WayUp a (h.ancestorsWithin steps (some a)) ∨
      (h.ancestorsWithin steps (some a)).length = steps := by
  induction steps generalizing a with
  | zero => exact Or.inr rfl
  | succ steps ih =>
    obtain ⟨c, found⟩ := isDefined_iff_find?.mp defined
    rw [ancestorsWithin_found steps found]
    cases link : c.parent with
    | none =>
      rw [ancestorsWithin_none]
      exact Or.inl (.root found link)
    | some b =>
      rcases ih (rooted.closed a b (extends_of_find? found link)) with rest | hlen
      · exact Or.inl (.step found link rest)
      · exact Or.inr (by rw [List.length_cons, hlen])

/-- The walk finds a way that is no longer than its bound. -/
theorem WayUp.ancestorsWithin_eq (up : h.WayUp a way) {steps : Nat} (hle : way.length ≤ steps) :
    h.ancestorsWithin steps (some a) = way := by
  induction up generalizing steps with
  | root found top =>
    obtain ⟨n, rfl⟩ : ∃ n, steps = n + 1 := ⟨steps - 1, by simp at hle; omega⟩
    rw [ancestorsWithin_found n found, top, ancestorsWithin_none]
  | step found link _ ih =>
    obtain ⟨n, rfl⟩ : ∃ n, steps = n + 1 := ⟨steps - 1, by simp at hle; omega⟩
    rw [ancestorsWithin_found n found, link, ih (by simpa using hle)]

/-- **The walk up is complete**: `ancestors` is the whole way from a class up to one without a
parent. -/
theorem ancestors_wayUp (rooted : h.Rooted) (defined : h.isDefined a = true) :
    h.WayUp a (h.ancestors a) := by
  have hle := length_ancestorsWithin_le rooted (h.classes.length + 1) (some a)
  rcases wayUp_or_length rooted (h.classes.length + 1) defined with up | hlen
  · rw [ancestors, up.ancestorsWithin_eq hle]
    exact up
  · omega

/-! ## What lies on the way up -/

/-- The classes on the way up from `a` are those that `a` is below. -/
theorem WayUp.mem_iff (rooted : h.Rooted) (up : h.WayUp a way) :
    (∃ c ∈ way, c.name = b) ↔ h.Below a b := by
  induction up with
  | @root a c found top =>
    constructor
    · rintro ⟨d, hd, rfl⟩
      rw [List.mem_singleton] at hd
      rw [hd, (find?_mem found).2]
      exact Relation.ReflTransGen.refl
    · intro hb
      rcases Relation.ReflTransGen.cases_head hb with rfl | ⟨b', link, -⟩
      · exact ⟨c, List.mem_singleton.mpr rfl, (find?_mem found).2⟩
      · obtain ⟨d, found', hp⟩ := link.find? rooted.distinct
        rw [found, Option.some.injEq] at found'
        rw [← found', top] at hp
        exact absurd hp (by simp)
  | @step a _ c way found link _ ih =>
    constructor
    · rintro ⟨d, hd, hname⟩
      rw [List.mem_cons] at hd
      rcases hd with rfl | hd
      · rw [← hname, (find?_mem found).2]
        exact Relation.ReflTransGen.refl
      · exact Relation.ReflTransGen.head (extends_of_find? found link) (ih.mp ⟨d, hd, hname⟩)
    · intro hb
      rcases Relation.ReflTransGen.cases_head hb with rfl | ⟨b'', link', above⟩
      · exact ⟨c, List.mem_cons_self, (find?_mem found).2⟩
      · rw [extends_unique rooted.distinct link' (extends_of_find? found link)] at above
        obtain ⟨d, hd, hname⟩ := ih.mpr above
        exact ⟨d, List.mem_cons_of_mem c hd, hname⟩

/-- The way up ends at `Object`. -/
theorem WayUp.last (rooted : h.Rooted) (up : h.WayUp a way) :
    way.getLast?.map ClassSignature.name = some Known.object := by
  induction up with
  | root found top => simpa using (rooted.top _ (find?_mem found).1).mp top
  | step found link rest ih =>
    cases rest with
    | root => exact ih
    | step => exact ih

theorem mem_ancestors_iff (rooted : h.Rooted) (defined : h.isDefined a = true) :
    (∃ c ∈ h.ancestors a, c.name = b) ↔ h.Below a b :=
  (ancestors_wayUp rooted defined).mem_iff rooted

theorem below_object (rooted : h.Rooted) (defined : h.isDefined a = true) :
    h.Below a Known.object := by
  have hlast := (ancestors_wayUp rooted defined).last rooted
  rw [Option.map_eq_some_iff] at hlast
  obtain ⟨c, hc, hname⟩ := hlast
  exact (mem_ancestors_iff rooted defined).mp ⟨c, List.mem_of_getLast? hc, hname⟩

theorem below_antisymm (rooted : h.Rooted) (hab : h.Below a b) (hba : h.Below b a) : a = b := by
  rcases Relation.reflTransGen_iff_eq_or_transGen.mp hab with rfl | up
  · rfl
  · exact absurd (up.trans_left hba) (rooted.acyclic a)

theorem Below.isDefined (rooted : h.Rooted) (hab : h.Below a b) (defined : h.isDefined a = true) :
    h.isDefined b = true := by
  induction hab with
  | refl => exact defined
  | tail _ link _ => exact rooted.closed _ _ link

end Hierarchy

end SelfTyped
