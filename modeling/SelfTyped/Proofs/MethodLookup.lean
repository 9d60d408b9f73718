/-
SelfTyped.Proofs.MethodLookup — calls refer to the closest declaration.

The method table is filled class by class and drops redeclarations.  What
it holds under a class and a name is the first declaration of that name in
the class (`declared?_build`), and a call finds what `Resolves` relates to
it (`resolve?_eq_some_iff`).  The table is keyed by the owners that the
methods name, so this asks that every method names the class that it is
declared in, which holds of every hierarchy that was built.
-/
import Mathlib.Data.List.Find
import SelfTyped.Proofs.Judgement
import SelfTyped.Typing.Methods

namespace SelfTyped

open Hierarchy (Rooted WayUp Resolves)

variable {h : Hierarchy} {owner name start : Name} {m : MethodSignature} {c : ClassSignature}
  {classes : List ClassSignature}

/-- Every method names the class that it is declared in. -/
def Hierarchy.Owned (h : Hierarchy) : Prop :=
  ∀ c ∈ h.classes, ∀ m ∈ c.methods, m.owner = c.name

theorem Hierarchy.Resolves.isDefined (resolves : h.Resolves name start m) :
    h.isDefined start = true := by
  cases resolves with
  | own found | inherited found => exact Hierarchy.isDefined_iff_find?.mpr ⟨_, found⟩

namespace MethodTable

/-! ## The table -/

theorem declared?_add (c : ClassSignature) (state : MethodTable × List Finding)
    (m : MethodSignature) (owner name : Name) :
    (add c state m).1.declared? owner name =
      (state.1.declared? owner name).or
        ([m].find? fun m => m.owner == owner && m.name == name) := by
  rw [add]
  split
  · next taken =>
    rw [List.find?_singleton]
    split
    · next hit =>
      -- the table has a declaration of this name already, and keeps it
      rw [Bool.and_eq_true, beq_iff_eq, beq_iff_eq] at hit
      rw [hit.1, hit.2] at taken
      obtain ⟨earlier, found⟩ := Option.isSome_iff_exists.mp taken
      rw [found, Option.some_or]
    · rw [Option.or_none]
  · rw [declared?, List.find?_append]
    rfl

theorem declared?_addAll (c : ClassSignature) (methods : List MethodSignature)
    (state : MethodTable × List Finding) (owner name : Name) :
    (methods.foldl (add c) state).1.declared? owner name =
      (state.1.declared? owner name).or
        (methods.find? fun m => m.owner == owner && m.name == name) := by
  induction methods generalizing state with
  | nil => rw [List.foldl_nil, List.find?_nil, Option.or_none]
  | cons first rest ih =>
    rw [List.foldl_cons, ih, declared?_add, Option.or_assoc, ← List.find?_append,
      List.singleton_append]

theorem declared?_addClasses (classes : List ClassSignature) (state : MethodTable × List Finding)
    (owner name : Name) :
    (classes.foldl addClass state).1.declared? owner name =
      (state.1.declared? owner name).or
        ((classes.flatMap ClassSignature.methods).find? fun m =>
          m.owner == owner && m.name == name) := by
  induction classes generalizing state with
  | nil => rw [List.foldl_nil, List.flatMap_nil, List.find?_nil, Option.or_none]
  | cons first rest ih =>
    rw [List.foldl_cons, ih, addClass, declared?_addAll, Option.or_assoc, ← List.find?_append,
      List.flatMap_cons]

/-- The first of the methods of all classes that has the owner `c.name` is the first method of
`c`. -/
theorem find?_methods (distinct : (classes.map ClassSignature.name).Nodup)
    (owned : ∀ c ∈ classes, ∀ m ∈ c.methods, m.owner = c.name) (hc : c ∈ classes) :
    ((classes.flatMap ClassSignature.methods).find? fun m => m.owner == c.name && m.name == name) =
      c.methods.find? fun m => m.name == name := by
  have here : (c.methods.find? fun m => m.owner == c.name && m.name == name) =
      c.methods.find? fun m => m.name == name := by
    refine List.find?_congr fun m hm => ?_
    rw [owned c hc m hm, beq_self_eq_true, Bool.true_and]
  have elsewhere : ∀ d ∈ classes, d ≠ c →
      (d.methods.find? fun m => m.owner == c.name && m.name == name) = none := by
    intro d hd differ
    rw [List.find?_eq_none]
    intro m hm hit
    rw [Bool.and_eq_true, beq_iff_eq, owned d hd m hm] at hit
    exact differ (List.inj_on_of_nodup_map distinct hd hc hit.1)
  rw [List.find?_flatMap, ← here]
  obtain ⟨before, after, rfl⟩ := List.append_of_mem hc
  rw [List.map_append, List.map_cons, List.nodup_append, List.nodup_cons] at distinct
  obtain ⟨_, ⟨last, _⟩, first⟩ := distinct
  rw [List.findSome?_append, List.findSome?_eq_none_iff.mpr, Option.none_or, List.findSome?_cons]
  · cases found : c.methods.find? fun m => m.owner == c.name && m.name == name with
    | some m => rfl
    | none =>
      rw [List.findSome?_eq_none_iff]
      intro d hd
      refine elsewhere d (List.mem_append_right _ (List.mem_cons_of_mem c hd)) ?_
      rintro rfl
      exact last (List.mem_map_of_mem hd)
  · intro d hd
    refine elsewhere d (List.mem_append_left _ hd) ?_
    rintro rfl
    exact first _ (List.mem_map_of_mem hd) _ List.mem_cons_self rfl

/-- The table holds the first declaration of each name in a class. -/
theorem declared?_build (rooted : h.Rooted) (owned : h.Owned) (hc : c ∈ h.classes) :
    (build h).1.declared? c.name name = c.methods.find? fun m => m.name == name := by
  rw [build, declared?_addClasses, find?_methods rooted.distinct owned hc]
  rfl

/-! ## Calls -/

theorem resolve_way (rooted : h.Rooted) (owned : h.Owned) {way : List ClassSignature}
    (up : h.WayUp start way) :
    (way.findSome? fun c => (build h).1.declared? c.name name) = some m ↔
      h.Resolves name start m := by
  induction up with
  | root found top =>
    rw [List.findSome?_singleton, declared?_build rooted owned (Hierarchy.find?_mem found).1]
    constructor
    · intro first
      exact .own found first
    · intro resolves
      cases resolves with
      | own found' first | inherited found' _ link =>
        rw [found, Option.some.injEq] at found'
        simp_all
  | step found link _ ih =>
    rw [List.findSome?_cons, declared?_build rooted owned (Hierarchy.find?_mem found).1]
    split
    · next first =>
      rw [Option.some.injEq]
      constructor
      · rintro rfl
        exact .own found first
      · intro resolves
        exact (Hierarchy.Resolves.own found first).unique resolves
    · next missing =>
      rw [ih]
      constructor
      · intro above
        exact .inherited found missing link above
      · intro resolves
        cases resolves with
        | own found' first =>
          rw [found, Option.some.injEq] at found'
          rw [found', first] at missing
          exact absurd missing (by simp)
        | inherited found' _ link' above =>
          rw [found, Option.some.injEq] at found'
          rw [found', link', Option.some.injEq] at link
          rw [← link]
          exact above

/-- **A call finds the closest declaration upwards.** -/
theorem resolve?_eq_some_iff (rooted : h.Rooted) (owned : h.Owned) :
    (build h).1.resolve? h start name = some m ↔ h.Resolves name start m := by
  rw [resolve?]
  cases known : h.isDefined start with
  | true => exact resolve_way rooted owned (Hierarchy.ancestors_wayUp rooted known)
  | false =>
    rw [Hierarchy.ancestors_unknown known, List.findSome?_nil]
    constructor
    · intro impossible
      exact absurd impossible (by simp)
    · intro resolves
      rw [resolves.isDefined] at known
      exact absurd known (by simp)

theorem resolve?_eq_none_iff (rooted : h.Rooted) (owned : h.Owned) :
    (build h).1.resolve? h start name = none ↔ ∀ m, ¬ h.Resolves name start m := by
  rw [Option.eq_none_iff_forall_ne_some]
  simp only [ne_eq, resolve?_eq_some_iff rooted owned]

end MethodTable

/-! ## Hierarchies of programs -/

theorem declared_owned (p : Program) : p.declared.Owned := by
  intro c hc m hm
  rw [Program.declared, List.mem_append] at hc
  rcases hc with hc | hc
  · have builtins : ∀ c ∈ Builtin.classes, ∀ m ∈ c.methods, m.owner = c.name := by decide
    exact builtins c hc m hm
  · obtain ⟨d, _, rfl⟩ := List.mem_map.mp hc
    obtain ⟨method, _, rfl⟩ := List.mem_map.mp hm
    rfl

theorem build_owned {p : Program} (built : Hierarchy.build p = .ok h) : h.Owned := by
  rw [(Hierarchy.build_eq_ok_iff.mp built).2]
  exact declared_owned p

end SelfTyped
