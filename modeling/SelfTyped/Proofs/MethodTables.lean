/-
SelfTyped.Proofs.MethodTables — the method table class by class.

The table is keyed by class and name, so what a class adds to it, and
which redeclarations are reported, depends on that class alone.  The table
of a hierarchy is put together from the tables of its classes
(`build_eq`), and a look-up goes to the class first and then to its methods
(`declared?_build_eq`).
-/
import SelfTyped.Proofs.MethodLookup

namespace SelfTyped

namespace MethodTable

variable {h : Hierarchy} {c : ClassSignature} {classes : List ClassSignature}
  {m : MethodSignature} {owner name : Name}

/-! ## One class -/

/-- The methods of a class alone, and the redeclarations among them. -/
def ofClass (c : ClassSignature) : MethodTable × List Finding :=
  addClass (⟨[]⟩, []) c

/-- A method goes into the table of its class whatever the table holds of other classes. -/
theorem add_append (c : ClassSignature) {before : MethodTable} (found : List Finding)
    (state : MethodTable × List Finding) (other : ∀ m' ∈ before.methods, m'.owner ≠ m.owner) :
    add c (⟨before.methods ++ state.1.methods⟩, found ++ state.2) m =
      (⟨before.methods ++ (add c state m).1.methods⟩, found ++ (add c state m).2) := by
  have unseen : (before.methods.find? fun m' => m'.owner == m.owner && m'.name == m.name) =
      none := by
    rw [List.find?_eq_none]
    intro m' mem hit
    rw [Bool.and_eq_true, beq_iff_eq] at hit
    exact other m' mem hit.1
  have same : declared? ⟨before.methods ++ state.1.methods⟩ m.owner m.name =
      state.1.declared? m.owner m.name := by
    rw [declared?, List.find?_append, unseen, Option.none_or]
    rfl
  rw [add, add, same]
  split <;> simp only [List.append_assoc]

theorem addAll_append (c : ClassSignature) (methods : List MethodSignature)
    {before : MethodTable} (found : List Finding) (state : MethodTable × List Finding)
    (other : ∀ m' ∈ before.methods, ∀ m ∈ methods, m'.owner ≠ m.owner) :
    methods.foldl (add c) (⟨before.methods ++ state.1.methods⟩, found ++ state.2) =
      (⟨before.methods ++ (methods.foldl (add c) state).1.methods⟩,
        found ++ (methods.foldl (add c) state).2) := by
  induction methods generalizing state with
  | nil => rfl
  | cons first rest ih =>
    rw [List.foldl_cons, List.foldl_cons,
      add_append c found state fun m' mem => other m' mem first List.mem_cons_self]
    exact ih _ fun m' mem m mem' => other m' mem m (List.mem_cons_of_mem first mem')

/-- A class that owns its methods adds its own table. -/
theorem addClass_eq (owned : ∀ m ∈ c.methods, m.owner = c.name)
    (state : MethodTable × List Finding) (fresh : ∀ m ∈ state.1.methods, m.owner ≠ c.name) :
    addClass state c =
      (⟨state.1.methods ++ (ofClass c).1.methods⟩, state.2 ++ (ofClass c).2) := by
  have alone := addAll_append c c.methods state.2 (⟨[]⟩, []) fun m' mem m mem' => by
    rw [owned m mem']
    exact fresh m' mem
  rw [List.append_nil, List.append_nil] at alone
  exact alone

theorem addAll_subset (c : ClassSignature) (methods : List MethodSignature)
    (state : MethodTable × List Finding) :
    (methods.foldl (add c) state).1.methods ⊆ state.1.methods ++ methods := by
  induction methods generalizing state with
  | nil => exact List.subset_append_left _ _
  | cons first rest ih =>
    have step : (add c state first).1.methods ⊆ state.1.methods ++ [first] := by
      rw [add]
      split
      · exact List.subset_append_left _ _
      · exact List.Subset.refl _
    intro m mem
    rcases List.mem_append.mp (ih _ mem) with early | late
    · have kept := step early
      rw [List.mem_append, List.mem_singleton] at kept
      simpa [or_assoc] using Or.inl kept
    · simp [late]

/-- The table of a class holds methods of the class. -/
theorem ofClass_subset (c : ClassSignature) : (ofClass c).1.methods ⊆ c.methods :=
  addAll_subset c c.methods (⟨[]⟩, [])

/-! ## All classes -/

theorem addClasses_eq (distinct : (classes.map ClassSignature.name).Nodup)
    (owned : ∀ c ∈ classes, ∀ m ∈ c.methods, m.owner = c.name)
    (state : MethodTable × List Finding)
    (fresh : ∀ m ∈ state.1.methods, ∀ c ∈ classes, m.owner ≠ c.name) :
    classes.foldl addClass state =
      (⟨state.1.methods ++ classes.flatMap fun c => (ofClass c).1.methods⟩,
        state.2 ++ classes.flatMap fun c => (ofClass c).2) := by
  induction classes generalizing state with
  | nil => simp
  | cons first rest ih =>
    rw [List.map_cons, List.nodup_cons] at distinct
    obtain ⟨unique, distinct⟩ := distinct
    have here := owned first List.mem_cons_self
    have others := fun c mem => owned c (List.mem_cons_of_mem first mem)
    rw [List.foldl_cons, addClass_eq here state fun m mem => fresh m mem first List.mem_cons_self,
      ih distinct others, List.flatMap_cons, List.flatMap_cons, List.append_assoc,
      List.append_assoc]
    -- what is in the table now is from other classes
    intro m mem c hc
    rw [List.mem_append] at mem
    rcases mem with early | own
    · exact fresh m early c (List.mem_cons_of_mem first hc)
    · rw [here m (ofClass_subset first own)]
      intro same
      exact unique (List.mem_map.mpr ⟨c, hc, same.symm⟩)

/-- **The table of a hierarchy is that of its classes**, one after the other. -/
theorem build_eq (rooted : h.Rooted) (owned : h.Owned) :
    build h = (⟨h.classes.flatMap fun c => (ofClass c).1.methods⟩,
      h.classes.flatMap fun c => (ofClass c).2) :=
  addClasses_eq rooted.distinct owned (⟨[]⟩, []) (by simp)

theorem build_methods (rooted : h.Rooted) (owned : h.Owned) :
    (build h).1.methods = h.classes.flatMap fun c => (ofClass c).1.methods := by
  rw [build_eq rooted owned]

theorem build_redeclarations (rooted : h.Rooted) (owned : h.Owned) :
    (build h).2 = h.classes.flatMap fun c => (ofClass c).2 := by
  rw [build_eq rooted owned]

/-- A look-up goes to the class, and there to the first method of the name. -/
theorem declared?_build_eq (rooted : h.Rooted) (owned : h.Owned) (owner name : Name) :
    (build h).1.declared? owner name =
      (h.find? owner).bind fun c => c.methods.find? fun m => m.name == name := by
  cases found : h.find? owner with
  | some c =>
    obtain ⟨hc, rfl⟩ := Hierarchy.find?_mem found
    exact declared?_build rooted owned hc
  | none =>
    rw [build, declared?_addClasses, Option.bind_none, Option.or_eq_none_iff]
    refine ⟨rfl, List.find?_eq_none.mpr fun m mem hit => ?_⟩
    obtain ⟨c, hc, hm⟩ := List.mem_flatMap.mp mem
    rw [Bool.and_eq_true, beq_iff_eq, owned c hc m hm] at hit
    have known := Hierarchy.isDefined_of_mem hc
    rw [hit.1, Hierarchy.find?_eq_none_iff.mp found] at known
    exact absurd known (by simp)

/-- Nothing is declared twice in a built-in class. -/
theorem builtin_redeclared : (Builtin.classes.flatMap fun c => (ofClass c).2) = [] := by
  decide

end MethodTable

end SelfTyped
