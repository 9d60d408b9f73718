/-
SelfTyped.Proofs.Redeclarations — of several declarations of one name the
first counts, and the others are reported.

Attributes and methods are both entered one after the other, and an entry
whose name is taken is reported and dropped.  `redeclared` says of a list
of declarations which ones these are, by their places in the list and
without a table.  It grows at its end as the list does
(`redeclared_concat`), so what is reported follows the loops that enter.

The two kinds of declarations differ in what makes a name taken.  An
attribute finds the names of all ancestors taken before the first one of
its own class; `class_scope_exact` says what the scope of a class holds in
the end.  A method finds only those of its own class, and inheritance is
left to the look-up; `method_table_exact` says what the table holds, how
large it is, and which declaration a call refers to.
-/
import Mathlib.Data.Finset.Card
import SelfTyped.Proofs.Inheritance
import SelfTyped.Proofs.MethodTables
import SelfTyped.Proofs.Subtyping

namespace SelfTyped

variable {α : Type} {h : Hierarchy} {c : ClassSignature} {Γ : TypeEnv}

/-- The items of a list whose name is taken: it is one of `taken`, or that of an item before. -/
def redeclared (name : α → Name) (taken : List Name) (items : List α) : List α :=
  (items.zipIdx.filter fun entry =>
    decide (name entry.1 ∈ taken ∨ name entry.1 ∈ (items.take entry.2).map name)).map Prod.fst

theorem redeclared_subset (name : α → Name) (taken : List Name) (items : List α) :
    redeclared name taken items ⊆ items := by
  intro item mem
  obtain ⟨entry, kept, rfl⟩ := List.mem_map.mp mem
  exact List.fst_mem_of_mem_zipIdx (List.mem_filter.mp kept).1

theorem redeclared_concat (name : α → Name) (taken : List Name) (items : List α) (last : α) :
    redeclared name taken (items ++ [last]) =
      redeclared name taken items ++
        if name last ∈ taken ∨ name last ∈ items.map name then [last] else [] := by
  have before : (items.zipIdx.filter fun entry => decide (name entry.1 ∈ taken ∨
        name entry.1 ∈ ((items ++ [last]).take entry.2).map name)) =
      items.zipIdx.filter fun entry =>
        decide (name entry.1 ∈ taken ∨ name entry.1 ∈ (items.take entry.2).map name) := by
    refine List.filter_congr fun entry mem => ?_
    have inside : entry.2 ≤ items.length := Nat.le_of_lt (List.snd_lt_of_mem_zipIdx mem)
    rw [List.take_append_of_le_length inside]
  have whole : (items ++ [last]).take (0 + items.length) = items := by
    rw [Nat.zero_add, List.take_left]
  rw [redeclared, List.zipIdx_append, List.filter_append, before, List.map_append,
    List.zipIdx_singleton, List.filter_singleton, whole, redeclared]
  congr 1
  by_cases hit : name last ∈ taken ∨ name last ∈ items.map name
  · rw [if_pos hit, decide_eq_true hit]
    rfl
  · rw [if_neg hit, decide_eq_false hit]
    rfl

/-! ## Attributes -/

namespace TypeEnv

theorem redefined_concat (Γ : TypeEnv) (attributes : List AttributeSignature)
    (last : AttributeSignature) :
    Γ.redefined (attributes ++ [last]) = Γ.redefined attributes ++
      if last.name ≠ Known.self ∧ (Γ.withAttributes attributes last.name).isSome then [last]
      else [] := by
  induction attributes generalizing Γ with
  | nil =>
    have unchanged : Γ.withAttributes [] = Γ := funext fun name => Option.or_none
    rw [List.nil_append, redefined, redefined, redefined, unchanged, List.append_nil,
      List.nil_append]
  | cons first rest ih =>
    rw [List.cons_append, redefined, ih, redefined, ← withAttributes_cons, List.append_assoc]

/-- After attributes are added, a name other than `self` is bound if it was or is that of one of
them. -/
theorem isSome_withAttributes_iff (Γ : TypeEnv) (attributes : List AttributeSignature)
    (name : Name) :
    (Γ.withAttributes attributes name).isSome = true ↔
      (Γ name).isSome = true ∨ name ∈ attributes.map AttributeSignature.name := by
  rw [withAttributes, Option.isSome_or, Option.isSome_map, Bool.or_eq_true, List.find?_isSome,
    List.mem_map]
  simp only [beq_iff_eq]

/-- What is redefined is what is declared anew, `self` aside. -/
theorem redefined_eq {taken : List Name}
    (bound : ∀ name, name ≠ Known.self → ((Γ name).isSome = true ↔ name ∈ taken))
    (attributes : List AttributeSignature) :
    Γ.redefined attributes =
      (redeclared AttributeSignature.name taken attributes).filter fun a =>
        a.name != Known.self := by
  induction attributes using List.reverseRecOn with
  | nil => rfl
  | append_singleton attributes last ih =>
    rw [redefined_concat, redeclared_concat, List.filter_append, ih]
    congr 1
    by_cases isSelf : last.name = Known.self
    · rw [if_neg fun both => both.1 isSelf]
      split <;> simp [isSelf]
    · have taken_iff : (Γ.withAttributes attributes last.name).isSome = true ↔
          last.name ∈ taken ∨ last.name ∈ attributes.map AttributeSignature.name := by
        rw [isSome_withAttributes_iff, bound last.name isSelf]
      by_cases hit : last.name ∈ taken ∨ last.name ∈ attributes.map AttributeSignature.name
      · rw [if_pos ⟨isSelf, taken_iff.mpr hit⟩, if_pos hit]
        simp [isSelf]
      · rw [if_neg fun both => hit (taken_iff.mp both.2), if_neg hit, List.filter_nil]

end TypeEnv

/-- What the scope of a class holds and what is reported of the attributes of the class, if the
ancestors of the class, closest first, are the class itself and those `above` it. -/
structure Variables.ScopeOf (c : ClassSignature) (above : List ClassSignature)
    (scope : Variables × List Finding) : Prop where
  self : Scoped.lookup scope.1 Known.self = some Known.selfType
  /-- Of all declarations of a name the first counts, inherited ones before own ones. -/
  lookup : ∀ name, name ≠ Known.self →
    Scoped.lookup scope.1 name =
      ((above.flatMap ClassSignature.attributes ++ c.attributes).find? fun a =>
        a.name == name).map AttributeSignature.type
  /-- The names in the scope, each once, are `self` and those declared. -/
  visible : (Scoped.visible scope.1).Nodup ∧ ∀ name, name ∈ Scoped.visible scope.1 ↔
    name = Known.self ∨
      ∃ a ∈ above.flatMap ClassSignature.attributes ++ c.attributes, a.name = name
  /-- An own attribute is reported if its name is inherited or declared before it. -/
  reported : scope.2 =
    ((redeclared AttributeSignature.name
      ((above.flatMap ClassSignature.attributes).map AttributeSignature.name)
      c.attributes).filter fun a => a.name != Known.self).map fun a =>
        ⟨⟨c.file, a.line⟩, .attributeRedefined a.name⟩

namespace Variables

theorem ofClass_reported (h : Hierarchy) (c : ClassSignature) :
    (ofClass h c).2 =
      ((redeclared AttributeSignature.name
        ((h.inheritedAttributes c).map AttributeSignature.name)
        c.attributes).filter fun a => a.name != Known.self).map fun a =>
          ⟨⟨c.file, a.line⟩, .attributeRedefined a.name⟩ := by
  have inherited := agrees_inheritAll (h.inheritedAttributes c) agrees_ofEveryClass rfl
  have findings := declareAll_findings (c := c) c.attributes inherited
    (TypeEnv.isSome_withAttributes rfl _) []
  rw [List.nil_append] at findings
  refine findings.trans (congrArg (List.map _) (TypeEnv.redefined_eq ?_ c.attributes))
  intro name notSelf
  rw [TypeEnv.isSome_withAttributes_iff, if_neg notSelf, Option.isSome_none]
  simp

theorem scopeOf_ofClass {above : List ClassSignature} (split : h.ancestors c.name = c :: above) :
    ScopeOf c above (ofClass h c) := by
  have agrees := agrees_ofClass h c
  have inherited : above.flatMap ClassSignature.attributes = h.inheritedAttributes c := by
    rw [Hierarchy.inheritedAttributes, split, List.drop_one, List.tail_cons]
  have scope : attributesInScope h c = above.flatMap ClassSignature.attributes ++ c.attributes := by
    rw [inherited]
    rfl
  have bound : ∀ name, (Scoped.lookup (ofClass h c).1 name).isSome = true ↔
      name = Known.self ∨
        ∃ a ∈ above.flatMap ClassSignature.attributes ++ c.attributes, a.name = name := by
    intro name
    rw [agrees.lookup, TypeEnv.ofClass, TypeEnv.isSome_withAttributes_iff, scope, List.mem_map]
    by_cases isSelf : name = Known.self <;> simp [isSelf]
  constructor
  · rw [agrees.lookup]
    rfl
  · intro name notSelf
    rw [agrees.lookup, TypeEnv.ofClass, TypeEnv.withAttributes, scope, if_neg notSelf,
      Option.none_or]
  · refine ⟨agrees.consistent.distinct, fun name => ?_⟩
    rw [Scoped.mem_visible_iff agrees.consistent, bound]
  · rw [inherited, ofClass_reported]

/-- **The scope of a class holds `self` and the first declaration of every other name**, those of
ancestors first, and every own attribute that comes later is reported at its place. -/
theorem class_scope_exact (provided : h.Provided) (hc : c ∈ h.classes) :
    ∃ above, h.WayUp c.name (c :: above) ∧ ScopeOf c above (ofClass h c) := by
  have rooted := provided.rooted
  obtain ⟨above, split⟩ := Hierarchy.ancestors_cons (Hierarchy.find?_name rooted.distinct hc)
  refine ⟨above, ?_, scopeOf_ofClass split⟩
  rw [← split]
  exact Hierarchy.ancestors_wayUp rooted (Hierarchy.isDefined_of_mem hc)

/-- A class with an attribute that its parent declares and one that it declares twice. -/
def redeclares : Class :=
  ⟨5, "A", "Main", "a.cl", [.attr ⟨6, "x", "String", ⟨6, .noExpr⟩⟩,
    .attr ⟨7, "self", "Int", ⟨7, .noExpr⟩⟩, .attr ⟨8, "y", "IO", ⟨8, .noExpr⟩⟩,
    .attr ⟨9, "y", "Int", ⟨9, .noExpr⟩⟩]⟩

/-- An attribute of the parent and the first of two own ones count; the other two are reported. -/
theorem class_scope_exact_redeclares :
    ∃ h, Hierarchy.build ⟨[⟨1, "Main", "Object", "main.cl",
        [.attr ⟨2, "x", "Int", ⟨2, .noExpr⟩⟩]⟩, redeclares]⟩ = .ok h ∧
      ClassSignature.ofClass redeclares ∈ h.classes ∧
      Scoped.lookup (ofClass h (ClassSignature.ofClass redeclares)).1 "x" = some "Int" ∧
      (ofClass h (ClassSignature.ofClass redeclares)).2 =
        [⟨⟨"a.cl", 6⟩, .attributeRedefined "x"⟩, ⟨⟨"a.cl", 9⟩, .attributeRedefined "y"⟩] := by
  have built : Hierarchy.build ⟨[⟨1, "Main", "Object", "main.cl",
      [.attr ⟨2, "x", "Int", ⟨2, .noExpr⟩⟩]⟩, redeclares]⟩ = .ok _ := rfl
  have mem : ClassSignature.ofClass redeclares ∈
      (Builtin.classes ++ [ClassSignature.ofClass ⟨1, "Main", "Object", "main.cl",
        [.attr ⟨2, "x", "Int", ⟨2, .noExpr⟩⟩]⟩, ClassSignature.ofClass redeclares]) := by decide
  obtain ⟨above, up, scope⟩ := class_scope_exact (Or.inr ⟨_, built⟩) mem
  have way := up.eq_ancestors (Hierarchy.build_rooted built)
  obtain rfl : above = _ := (List.cons.inj way.symm).2
  refine ⟨_, built, mem, ?_, ?_⟩
  · rw [scope.lookup "x" (by decide)]
    decide
  · rw [scope.reported]
    decide

end Variables

/-! ## Methods -/

namespace MethodTable

variable {classes : List ClassSignature} {state : MethodTable × List Finding}

/-- The class and the name of every method in a table. -/
def keys (table : MethodTable) : List (Name × Name) :=
  table.methods.map fun m => (m.owner, m.name)

theorem isSome_declared?_iff (table : MethodTable) (owner name : Name) :
    (table.declared? owner name).isSome = true ↔ (owner, name) ∈ table.keys := by
  rw [declared?, List.find?_isSome, keys, List.mem_map]
  simp only [Bool.and_eq_true, beq_iff_eq, Prod.mk.injEq]

/-! A declaration goes either into the table or into the reports. -/

theorem nodup_keys_add (c : ClassSignature) (m : MethodSignature) (nodup : state.1.keys.Nodup) :
    (add c state m).1.keys.Nodup := by
  rw [add]
  split
  · exact nodup
  · next free =>
    rw [isSome_declared?_iff] at free
    rw [keys, List.map_append, List.map_singleton, ← List.concat_eq_append]
    exact nodup.concat free

theorem count_add (c : ClassSignature) (state : MethodTable × List Finding)
    (m : MethodSignature) :
    (add c state m).2.length + (add c state m).1.size = state.2.length + state.1.size + 1 := by
  rw [add]
  split
  · simp only [List.length_append, List.length_singleton]
    omega
  · simp only [size, List.length_append, List.length_singleton]
    omega

theorem nodup_keys_addClass (c : ClassSignature) (nodup : state.1.keys.Nodup) :
    (addClass state c).1.keys.Nodup := by
  rw [addClass]
  exact List.foldlRecOn (motive := fun state => state.1.keys.Nodup) c.methods (add c) nodup
    fun _ nodup m _ => nodup_keys_add c m nodup

theorem nodup_keys_build (h : Hierarchy) : (build h).1.keys.Nodup := by
  rw [build]
  refine List.foldlRecOn (motive := fun state => state.1.keys.Nodup) h.classes addClass ?_
    fun _ nodup c _ => nodup_keys_addClass c nodup
  exact List.nodup_nil

theorem count_addAll (c : ClassSignature) (methods : List MethodSignature)
    (state : MethodTable × List Finding) :
    (methods.foldl (add c) state).2.length + (methods.foldl (add c) state).1.size =
      state.2.length + state.1.size + methods.length := by
  induction methods generalizing state with
  | nil => rfl
  | cons first rest ih =>
    rw [List.foldl_cons, ih, count_add, List.length_cons]
    omega

theorem count_addClasses (classes : List ClassSignature) (state : MethodTable × List Finding) :
    (classes.foldl addClass state).2.length + (classes.foldl addClass state).1.size =
      state.2.length + state.1.size + (classes.flatMap ClassSignature.methods).length := by
  induction classes generalizing state with
  | nil => rfl
  | cons first rest ih =>
    rw [List.foldl_cons, ih, addClass, count_addAll, List.flatMap_cons, List.length_append,
      Nat.add_assoc]

theorem mem_keys_build (owned : h.Owned) (owner name : Name) :
    (owner, name) ∈ (build h).1.keys ↔
      (owner, name) ∈ h.classes.flatMap fun c => c.methods.map fun m => (c.name, m.name) := by
  have first : (build h).1.declared? owner name =
      (h.classes.flatMap ClassSignature.methods).find? fun m =>
        m.owner == owner && m.name == name := by
    rw [build, declared?_addClasses]
    rfl
  rw [← isSome_declared?_iff, first, List.find?_isSome, List.mem_flatMap]
  constructor
  · rintro ⟨m, mem, hit⟩
    obtain ⟨c, hc, hm⟩ := List.mem_flatMap.mp mem
    rw [Bool.and_eq_true, beq_iff_eq, beq_iff_eq, owned c hc m hm] at hit
    exact ⟨c, hc, List.mem_map.mpr ⟨m, hm, Prod.ext hit.1 hit.2⟩⟩
  · rintro ⟨c, hc, mem⟩
    obtain ⟨m, hm, same⟩ := List.mem_map.mp mem
    rw [Prod.mk.injEq] at same
    refine ⟨m, List.mem_flatMap.mpr ⟨c, hc, hm⟩, ?_⟩
    rw [Bool.and_eq_true, beq_iff_eq, beq_iff_eq, owned c hc m hm]
    exact same

theorem size_build (owned : h.Owned) :
    (build h).1.size =
      (h.classes.flatMap fun c => c.methods.map fun m => (c.name, m.name)).toFinset.card := by
  have same : (build h).1.keys.toFinset =
      (h.classes.flatMap fun c => c.methods.map fun m => (c.name, m.name)).toFinset := by
    ext ⟨owner, name⟩
    rw [List.mem_toFinset, List.mem_toFinset, mem_keys_build owned]
  rw [← same, List.toFinset_card_of_nodup (nodup_keys_build h), keys, List.length_map, size]

/-- What is reported of the methods of a class are those that are declared anew. -/
theorem ofClass_reported (owned : ∀ m ∈ c.methods, m.owner = c.name) :
    (ofClass c).2 = (redeclared MethodSignature.name [] c.methods).map fun m =>
      ⟨⟨c.file, m.line⟩, .methodRedefined m.name⟩ := by
  rw [ofClass, addClass]
  generalize c.methods = methods at owned
  induction methods using List.reverseRecOn with
  | nil => rfl
  | append_singleton methods last ih =>
    have earlier : ∀ m ∈ methods, m.owner = c.name :=
      fun m mem => owned m (List.mem_append_left _ mem)
    have own : last.owner = c.name := owned last (List.mem_append_right _ (.head _))
    have first : (methods.foldl (add c) (⟨[]⟩, [])).1.declared? last.owner last.name =
        methods.find? fun m => m.owner == last.owner && m.name == last.name := by
      rw [declared?_addAll]
      rfl
    have taken : ((methods.foldl (add c) (⟨[]⟩, [])).1.declared? last.owner last.name).isSome =
        true ↔ last.name ∈ methods.map MethodSignature.name := by
      rw [first, List.find?_isSome, List.mem_map]
      refine exists_congr fun m => and_congr_right fun mem => ?_
      rw [Bool.and_eq_true, beq_iff_eq, beq_iff_eq, earlier m mem, own, and_iff_right rfl]
    rw [List.foldl_append, List.foldl_cons, List.foldl_nil, add, redeclared_concat,
      List.map_append, ← ih earlier]
    by_cases hit : last.name ∈ methods.map MethodSignature.name
    · rw [if_pos (taken.mpr hit), if_pos (Or.inr hit)]
      rfl
    · rw [if_neg (mt taken.mp hit), if_neg (by simpa using hit), List.map_nil, List.append_nil]

/-- What a method table holds, what is reported beside it, and what calls refer to in it. -/
structure Exact (h : Hierarchy) (built : MethodTable × List Finding) : Prop where
  /-- Of all declarations of a name in a class the first counts. -/
  declared : ∀ owner name, built.1.declared? owner name =
    (h.find? owner).bind fun c => c.methods.find? fun m => m.name == name
  /-- There are as many methods as pairs of a class and a name that it declares. -/
  size : built.1.size =
    (h.classes.flatMap fun c => c.methods.map fun m => (c.name, m.name)).toFinset.card
  /-- Every later declaration is reported at its place, class by class. -/
  reported : built.2 = h.classes.flatMap fun c =>
    (redeclared MethodSignature.name [] c.methods).map fun m =>
      ⟨⟨c.file, m.line⟩, .methodRedefined m.name⟩
  /-- Every declaration is either reported or in the table. -/
  total : built.2.length + built.1.size = (h.classes.flatMap ClassSignature.methods).length
  /-- A call refers to the declaration of the first class on the way up that has one. -/
  resolve : ∀ start, h.isDefined start = true → ∃ way, h.WayUp start way ∧ ∀ name m,
    built.1.resolve? h start name = some m ↔ ∃ below a above, way = below ++ a :: above ∧
      built.1.declared? a.name name = some m ∧ ∀ b ∈ below, built.1.declared? b.name name = none
  unresolved : ∀ start name, built.1.resolve? h start name = none ↔
    h.isDefined start = false ∨ ∀ a, h.Below start a → built.1.declared? a name = none

/-- A call refers to nothing if its class is unknown, or no class above it has a declaration. -/
theorem resolve?_eq_none_iff_below (table : MethodTable) (rooted : h.Rooted) (start name : Name) :
    table.resolve? h start name = none ↔
      h.isDefined start = false ∨ ∀ a, h.Below start a → table.declared? a name = none := by
  rw [resolve?, List.findSome?_eq_none_iff]
  cases known : h.isDefined start with
  | false => simp [Hierarchy.ancestors_unknown known]
  | true =>
    simp only [Bool.true_eq_false, false_or]
    constructor
    · intro missing a below
      obtain ⟨c, hc, rfl⟩ := (Hierarchy.mem_ancestors_iff rooted known).mpr below
      exact missing c hc
    · intro missing c hc
      exact missing c.name ((Hierarchy.mem_ancestors_iff rooted known).mp ⟨c, hc, rfl⟩)

/-- Every method names its class in the hierarchies that are handed out. -/
theorem owned_of_provided (provided : h.Provided) : h.Owned := by
  rcases provided with rfl | ⟨p, built⟩
  · exact (by decide : ∀ c ∈ Builtin.classes, ∀ m ∈ c.methods, m.owner = c.name)
  · exact build_owned built

/-- **The method table holds the first declaration of every name in every class**, all others are
reported, and a call refers to the declaration that is closest upwards. -/
theorem method_table_exact (provided : h.Provided) : Exact h (build h) where
  declared := declared?_build_eq provided.rooted (owned_of_provided provided)
  size := size_build (owned_of_provided provided)
  reported := by
    have owned := owned_of_provided provided
    rw [build_redeclarations provided.rooted owned]
    exact List.flatMap_congr fun c hc => ofClass_reported (owned c hc)
  total := by
    rw [build, count_addClasses]
    exact Nat.zero_add _
  resolve := by
    intro start known
    refine ⟨_, Hierarchy.ancestors_wayUp provided.rooted known, fun name m => ?_⟩
    rw [resolve?, List.findSome?_eq_some_iff]
  unresolved := resolve?_eq_none_iff_below _ provided.rooted

/-- A class that declares a method twice, and one that overrides it. -/
theorem method_table_exact_overridden :
    ∃ h, Hierarchy.build ⟨[⟨1, "Main", "IO", "main.cl",
        [.method ⟨2, "f", [], "Int", ⟨2, .noExpr⟩⟩, .method ⟨3, "f", [], "Bool", ⟨3, .noExpr⟩⟩]⟩,
      ⟨4, "A", "Main", "a.cl", [.method ⟨5, "f", [], "String", ⟨5, .noExpr⟩⟩]⟩]⟩ = .ok h ∧
      (build h).2 = [⟨⟨"main.cl", 3⟩, .methodRedefined "f"⟩] ∧ (build h).1.size = 12 ∧
      ((build h).1.declared? "Main" "f").map MethodSignature.returnType = some "Int" ∧
      (build h).1.resolve? h "Ghost" "f" = none := by
  have built : Hierarchy.build ⟨[⟨1, "Main", "IO", "main.cl",
        [.method ⟨2, "f", [], "Int", ⟨2, .noExpr⟩⟩, .method ⟨3, "f", [], "Bool", ⟨3, .noExpr⟩⟩]⟩,
      ⟨4, "A", "Main", "a.cl", [.method ⟨5, "f", [], "String", ⟨5, .noExpr⟩⟩]⟩]⟩ = .ok _ := rfl
  have exact := method_table_exact (Or.inr ⟨_, built⟩)
  refine ⟨_, built, ?_, ?_, ?_, ?_⟩
  · rw [exact.reported]
    decide
  · rw [exact.size]
    decide
  · rw [exact.declared]
    decide
  · rw [exact.unresolved]
    exact Or.inl (by decide)

end MethodTable

end SelfTyped
