/-
SelfTyped.Proofs.Suggestions — the suggestion is the least candidate.

A suggestion is made by a fold that keeps the better of two candidates at
each step.  That one candidate is better than another is an order: that of
the pairs of edit distance and text (`closeness`).  So the fold finds the
least candidate, and as no two texts have the same pair, there is only one.
Which candidates there are matters, but not how they are listed
(`mostRelated_congr`).
-/
import Mathlib.Data.List.MinMax
import Mathlib.Data.Prod.Lex
import Mathlib.Data.String.Basic
import SelfTyped.Text.Suggestion

namespace SelfTyped

variable {name candidate : Name} {candidates others : List Name}

/-- What the candidates for a name are compared by: the edit distance, and then the text. -/
def closeness (name candidate : Name) : Nat ×ₗ Name :=
  toLex (editDistance name candidate, candidate)

/-- A candidate may be suggested for a name. -/
def Suggestible (name candidate : Name) : Prop :=
  candidate ≠ name ∧ editDistance name candidate ≤ Relation.reach

instance (name candidate : Name) : Decidable (Suggestible name candidate) :=
  inferInstanceAs (Decidable (_ ∧ _))

/-- A candidate together with how close it is. -/
def Suggestion.compared (name candidate : Name) : Relation × Name :=
  (Relation.between name candidate, candidate)

/-! ## Comparing candidates -/

theorem closeness_injective (name : Name) : Function.Injective (closeness name) := by
  intro a b same
  exact congrArg Prod.snd (toLex_inj.mp same)

/-- A candidate in reach is closer than one out of reach. -/
theorem closeness_le_of_reach (near : editDistance name candidate ≤ Relation.reach)
    {other : Name} (far : Relation.reach < editDistance name other) :
    closeness name candidate ≤ closeness name other :=
  Prod.Lex.toLex_le_toLex.mpr (Or.inl (Nat.lt_of_le_of_lt near far))

namespace Relation

theorem between_eq (name candidate : Name) :
    between name candidate =
      if editDistance name candidate ≤ reach then .related (editDistance name candidate)
      else .unrelated := rfl

theorem isRelated_between :
    (between name candidate).isRelated = true ↔ editDistance name candidate ≤ reach := by
  rw [between_eq]
  split
  · next near => simp [isRelated, near]
  · next far => simp [isRelated, far]

theorem order_swap (a b : Relation) : (a.order b).swap = b.order a := by
  cases a with
  | related d =>
    cases b with
    | related e => exact Std.OrientedOrd.eq_swap.symm
    | unrelated => rfl
  | unrelated => cases b <;> rfl

end Relation

theorem Suggestion.better_compared {a b : Name} (ha : editDistance name a ≤ Relation.reach)
    (hb : editDistance name b ≤ Relation.reach) :
    Suggestion.better (compared name a) (compared name b) =
      decide (closeness name a < closeness name b) := by
  rw [compared, compared, Relation.between_eq, if_pos ha, Relation.between_eq, if_pos hb, better,
    Relation.order, Bool.eq_iff_iff, decide_eq_true_iff, closeness, closeness,
    Prod.Lex.toLex_lt_toLex]
  rcases Nat.lt_trichotomy (editDistance name a) (editDistance name b) with lt | eq | gt
  · simp [Nat.compare_eq_lt.mpr lt, lt]
  · simp [eq]
  · simp [Nat.compare_eq_gt.mpr gt, Nat.lt_asymm gt, Nat.ne_of_gt gt]

/-! ## The least candidate -/

theorem mostRelated_eq_foldl (name : Name) (candidates : List Name) :
    mostRelated name candidates =
      (((candidates.filter (Suggestible name ·)).map (Suggestion.compared name)).foldl
        Suggestion.improve none).map (·.2) := by
  have related : candidates.filterMap (fun c =>
      if c ≠ name ∧ (Relation.between name c).isRelated then some (Suggestion.compared name c)
      else none) = (candidates.filter (Suggestible name ·)).map (Suggestion.compared name) := by
    induction candidates with
    | nil => rfl
    | cons first rest ih =>
      have step : first ≠ name ∧ (Relation.between name first).isRelated = true ↔
          Suggestible name first := and_congr_right fun _ => Relation.isRelated_between
      rw [List.filterMap_cons, List.filter_cons, ih, if_congr step rfl rfl]
      by_cases may : Suggestible name first <;> simp [may]
  rw [← related]
  rfl

theorem foldl_improve_eq (within : ∀ c ∈ candidates, editDistance name c ≤ Relation.reach) :
    (candidates.map (Suggestion.compared name)).foldl Suggestion.improve none =
      (candidates.argmin (closeness name)).map (Suggestion.compared name) := by
  induction candidates using List.reverseRecOn with
  | nil => rfl
  | append_singleton before last ih =>
    have before_within : ∀ c ∈ before, editDistance name c ≤ Relation.reach :=
      fun c mem => within c (List.mem_append_left _ mem)
    rw [List.map_append, List.map_singleton, List.foldl_append, ih before_within,
      List.argmin_concat]
    cases found : before.argmin (closeness name) with
    | none => rfl
    | some best =>
      have better := Suggestion.better_compared
        (within last (List.mem_append_right _ List.mem_cons_self))
        (before_within best (List.argmin_mem found))
      simp only [Option.map_some, List.foldl_cons, List.foldl_nil, Suggestion.improve, better,
        decide_eq_true_iff]
      split <;> rfl

/-- A suggestion is the closest of the candidates that may be suggested. -/
theorem mostRelated_eq_argmin (name : Name) (candidates : List Name) :
    mostRelated name candidates =
      (candidates.filter (Suggestible name ·)).argmin (closeness name) := by
  have within : ∀ c ∈ candidates.filter (Suggestible name ·),
      editDistance name c ≤ Relation.reach := by
    intro c mem
    have may : Suggestible name c := of_decide_eq_true (List.mem_filter.mp mem).2
    exact may.2
  rw [mostRelated_eq_foldl, foldl_improve_eq within, Option.map_map]
  exact congrFun Option.map_id _

/-- Nothing is suggested if all candidates are too far off. -/
theorem mostRelated_eq_none :
    mostRelated name candidates = none ↔
      ∀ c ∈ candidates, c = name ∨ Relation.reach < editDistance name c := by
  rw [mostRelated_eq_argmin, List.argmin_eq_none, List.filter_eq_nil_iff]
  refine forall₂_congr fun c _ => ?_
  rw [decide_eq_true_iff, Suggestible, not_and_or, not_not, Nat.not_le]

/-- **What is suggested** is the candidate with the least pair of edit distance and text. -/
theorem mostRelated_eq_some :
    mostRelated name candidates = some candidate ↔
      candidate ∈ candidates ∧ candidate ≠ name ∧
        editDistance name candidate ≤ Relation.reach ∧
        ∀ c ∈ candidates, c ≠ name → closeness name candidate ≤ closeness name c := by
  rw [mostRelated_eq_argmin, List.argmin_eq_some_iff, List.mem_filter, decide_eq_true_iff]
  constructor
  · rintro ⟨⟨mem, other, near⟩, least, -⟩
    refine ⟨mem, other, near, fun c hc differs => ?_⟩
    by_cases reached : editDistance name c ≤ Relation.reach
    · exact least c (List.mem_filter.mpr ⟨hc, decide_eq_true ⟨differs, reached⟩⟩)
    · exact closeness_le_of_reach near (Nat.not_le.mp reached)
  · rintro ⟨mem, other, near, least⟩
    have least : ∀ c ∈ candidates.filter (Suggestible name ·),
        closeness name candidate ≤ closeness name c := by
      intro c hc
      obtain ⟨hc, may⟩ := List.mem_filter.mp hc
      exact least c hc (of_decide_eq_true may).1
    refine ⟨⟨mem, other, near⟩, least, fun c hc closer => ?_⟩
    rw [closeness_injective name (le_antisymm closer (least c hc))]

/-- How the candidates are listed plays no part. -/
theorem mostRelated_congr (same : ∀ c, c ∈ candidates ↔ c ∈ others) :
    mostRelated name candidates = mostRelated name others := by
  ext c
  rw [mostRelated_eq_some, mostRelated_eq_some]
  simp only [same]

end SelfTyped
