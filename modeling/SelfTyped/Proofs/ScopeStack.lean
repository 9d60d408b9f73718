/-
SelfTyped.Proofs.ScopeStack — scopes with an index are a stack of maps.

`Scoped.toStack` forgets the index.  Every operation on scopes is the
operation of the same name on the stack that they stand for, and what can
be observed of scopes is what can be observed of the stack
(`Scoped.Represents`).

This rests on an invariant: the index holds for every bound name the
numbers of exactly the scopes that bind it, innermost first, and no name
twice (`Scoped.Sound`).  When a scope is left its number is the first one
of each of its names, so it can be taken out of the index name by name, in
any order (`foldlM_dropNumber?`), and what is left is the index of the
scopes outside.
-/
import SelfTyped.Proofs.ScopeBindings
import SelfTyped.Scope.Stack

namespace SelfTyped

namespace Assoc

variable {α : Type} {map : Assoc α} {name : Name}

/-! ## Finite maps -/

theorem names_erase_sublist (map : Assoc α) (name : Name) :
    (map.erase name).names.Sublist map.names := by
  induction map with
  | nil => exact List.Sublist.refl _
  | cons entry rest ih =>
    obtain ⟨key, old⟩ := entry
    by_cases same : key = name
    · simp [erase, names, same]
    · simp only [erase, same, if_false]
      exact ih.cons_cons key

theorem get?_erase_self (distinct : map.names.Nodup) : (map.erase name).get? name = none := by
  induction map with
  | nil => rfl
  | cons entry rest ih =>
    obtain ⟨key, old⟩ := entry
    obtain ⟨fresh, distinct⟩ := List.nodup_cons.mp distinct
    by_cases same : key = name
    · simp only [erase, same, if_true]
      exact get?_eq_none_iff.mpr (same ▸ fresh)
    · simp only [erase, get?, same, if_false]
      exact ih distinct

end Assoc

namespace Scoped

variable {α : Type} {s s' : Scoped α} {name other : Name} {value : α} {number : Nat}
  {index index' : Assoc (List Nat)} {scope : Assoc α} {outer : List (Assoc α)} {keys : List Name}
  {ops : List (ScopeOperation α)} {t : ScopeStack α}

/-! ## The invariant -/

/-- The index says which scopes bind a name, and no scope lists a name twice. -/
structure Sound (s : Scoped α) : Prop extends s.Consistent where
  scopes_nodup : ∀ scope ∈ s.scopes, scope.names.Nodup

theorem sound_empty : (empty : Scoped α).Sound where
  toConsistent := consistent_empty
  scopes_nodup := by
    intro scope mem
    simp [scopes, empty] at mem
    simp [mem, Assoc.names]

theorem sound_enter (sound : s.Sound) : s.enter.Sound where
  toConsistent := consistent_enter sound.toConsistent
  scopes_nodup := by
    intro scope mem
    rw [scopes_enter, List.mem_cons] at mem
    rcases mem with rfl | mem
    · exact List.nodup_nil
    · exact sound.scopes_nodup scope mem

theorem sound_bind (sound : s.Sound) (name : Name) (value : α) : (s.bind name value).2.Sound where
  toConsistent := consistent_bind sound.toConsistent name value
  scopes_nodup := by
    obtain ⟨outer, split, -, bound⟩ := s.bind_scopes name value
    intro scope mem
    rw [bound, List.mem_cons] at mem
    have nodup := sound.scopes_nodup
    rw [split] at nodup
    rcases mem with rfl | mem
    · exact Assoc.names_insert_nodup value (nodup _ List.mem_cons_self)
    · exact nodup scope (List.mem_cons_of_mem _ mem)

/-! ## Taking names out of the index -/

/-- A name loses the first of its numbers, and no other name is touched. -/
theorem getD_dropBinding (distinct : index.names.Nodup) (name other : Name) :
    ((dropBinding index name).get? other).getD [] =
      if name = other then ((index.get? other).getD []).tail else (index.get? other).getD [] := by
  by_cases same : name = other
  · subst same
    rw [if_pos rfl, dropBinding]
    split
    · next found => rw [Assoc.get?_insert, if_pos rfl, found]; rfl
    · next short =>
      rw [Assoc.get?_erase_self distinct]
      rcases found : index.get? name with _ | _ | ⟨first, _ | ⟨next, rest⟩⟩
      · rfl
      · rfl
      · rfl
      · exact absurd found (short first next rest)
  · rw [if_neg same, get?_dropBinding same]

theorem names_dropBinding_nodup (distinct : index.names.Nodup) (name : Name) :
    (dropBinding index name).names.Nodup := by
  rw [dropBinding]
  split
  · exact Assoc.names_insert_nodup _ distinct
  · exact distinct.sublist (Assoc.names_erase_sublist index name)

theorem noEmpty_dropBinding (noEmpty : NoEmpty index) (name : Name) :
    NoEmpty (dropBinding index name) :=
  noEmpty_dropAll noEmpty [name]

/-- Whatever the order, the checks change nothing about what is left of the index. -/
theorem eq_dropAll (dropped : keys.foldlM (dropNumber? number) index = some index') :
    index' = dropAll index keys := by
  induction keys generalizing index with
  | nil => simpa [dropAll] using dropped.symm
  | cons first rest ih =>
    rw [List.foldlM_cons, dropNumber?] at dropped
    split at dropped
    · exact ih dropped
    · simp at dropped

/-- **Names whose first number is that of the scope can be taken out in any order.**  Each loses
its first number. -/
theorem foldlM_dropNumber? (distinct : index.names.Nodup) (noEmpty : NoEmpty index)
    (nodup : keys.Nodup)
    (first : ∀ name ∈ keys, (index.get? name).bind List.head? = some number) :
    ∃ index', keys.foldlM (dropNumber? number) index = some index' ∧
      index'.names.Nodup ∧ NoEmpty index' ∧
      ∀ name, (index'.get? name).getD [] =
        if name ∈ keys then ((index.get? name).getD []).tail else (index.get? name).getD [] := by
  induction keys generalizing index with
  | nil => exact ⟨index, rfl, distinct, noEmpty, by simp⟩
  | cons key rest ih =>
    obtain ⟨fresh, nodup⟩ := List.nodup_cons.mp nodup
    -- the other names still have the number of the scope in front
    have others : ∀ name ∈ rest,
        ((dropBinding index key).get? name).bind List.head? = some number := by
      intro name mem
      have different : key ≠ name := fun same => fresh (same ▸ mem)
      rw [get?_dropBinding different]
      exact first name (List.mem_cons_of_mem key mem)
    obtain ⟨index', dropped, distinct', noEmpty', left⟩ :=
      ih (names_dropBinding_nodup distinct key) (noEmpty_dropBinding noEmpty key) nodup others
    refine ⟨index', ?_, distinct', noEmpty', ?_⟩
    · rw [List.foldlM_cons, dropNumber?, if_pos (first key List.mem_cons_self)]
      exact dropped
    · intro name
      rw [left, getD_dropBinding distinct]
      by_cases same : key = name
      · subst same
        simp [fresh]
      · simp [same, Ne.symm same]

/-! ## Leaving a scope -/

/-- The names of the innermost scope are those that have its number in front. -/
theorem head_numbers (sound : s.Sound) (bound : name ∈ s.current.names) :
    (s.index.get? name).bind List.head? = some s.depth := by
  obtain ⟨outer, split, hlen, -⟩ := s.scopes_eq_cons
  have numbers := sound.numbers name
  rw [split, bindingNumbers, if_pos ((Assoc.get?_isSome _ _).mpr bound), hlen] at numbers
  cases found : s.index.get? name with
  | none => simp [found] at numbers
  | some list =>
    rw [found, Option.getD_some] at numbers
    rw [numbers]
    rfl

/-- The index is sound for the scopes outside, in whatever order the names are taken out. -/
theorem leaveInOrder?_sound (sound : s.Sound) (inside : s.inner ≠ [])
    (order : keys.Perm s.current.names) :
    ∃ left, s.leaveInOrder? keys = some left ∧ left.Sound ∧ left.inner = s.inner.tail ∧
      left.root = s.root := by
  obtain ⟨inner, root, index⟩ := s
  cases inner with
  | nil => exact absurd rfl inside
  | cons scope outer =>
    have names : keys.Nodup :=
      order.nodup_iff.mpr (sound.scopes_nodup scope List.mem_cons_self)
    have first : ∀ name ∈ keys, (index.get? name).bind List.head? = some (outer.length + 1) :=
      fun name mem => head_numbers sound (order.mem_iff.mp mem)
    obtain ⟨index', dropped, distinct, noEmpty, left⟩ :=
      foldlM_dropNumber? sound.distinct sound.noEmpty names first
    refine ⟨⟨outer, root, index'⟩, ?_, ⟨⟨distinct, noEmpty, ?_⟩, ?_⟩, rfl, rfl⟩
    · change (keys.foldlM (dropNumber? (outer.length + 1)) index).map _ = _
      rw [dropped]
      rfl
    · intro name
      have numbers := sound.numbers name
      change (index.get? name).getD [] = bindingNumbers name (scope :: (outer ++ [root])) at numbers
      have bound : name ∈ keys ↔ (scope.get? name).isSome = true := by
        rw [order.mem_iff, Assoc.get?_isSome]
        rfl
      rw [left, numbers, bindingNumbers]
      by_cases here : (scope.get? name).isSome = true
      · simp only [bound, here, if_true, List.tail_cons]
        rfl
      · simp only [bound, here]
        rfl
    · exact fun other mem => sound.scopes_nodup other (List.mem_cons_of_mem scope mem)

/-- Leaving a scope takes its names out of the index in the order in which they were bound. -/
theorem leaveInOrder?_names (sound : s.Sound) (inside : s.inner ≠ []) :
    s.leaveInOrder? s.current.names = s.leave? := by
  obtain ⟨left, leaves, -⟩ := leaveInOrder?_sound sound inside (List.Perm.refl _)
  rw [leaves]
  obtain ⟨inner, root, index⟩ := s
  cases inner with
  | nil => exact absurd rfl inside
  | cons scope outer =>
    obtain ⟨index', dropped, rfl⟩ := Option.map_eq_some_iff.mp leaves
    rw [eq_dropAll dropped]
    rfl

theorem leave?_eq_none_iff (s : Scoped α) : s.leave? = none ↔ s.inner = [] := by
  obtain ⟨inner, root, index⟩ := s
  cases inner <;> simp [leave?]

/-! ## The stack behind scopes -/

/-- The stack of maps that scopes stand for. -/
def toStack (s : Scoped α) : ScopeStack α :=
  ⟨s.inner.map Assoc.get?, s.root.get?⟩

theorem toStack_empty : (empty : Scoped α).toStack = ScopeStack.empty := rfl

theorem toStack_enter (s : Scoped α) : s.enter.toStack = s.toStack.enter := rfl

theorem toStack_leave (inner : s'.inner = s.inner.tail) (root : s'.root = s.root) :
    s'.toStack = s.toStack.leave := by
  simp [toStack, ScopeStack.leave, inner, root]

theorem leave_toStack (root : s.inner = []) : s.toStack.leave = s.toStack := by
  simp [toStack, ScopeStack.leave, root]

theorem toStack_bind (s : Scoped α) (name : Name) (value : α) :
    (s.bind name value).2.toStack = s.toStack.bind name value := by
  have inserted : ∀ scope : Assoc α,
      (scope.insert name value).get? = ScopeStack.assign scope.get? name value :=
    fun scope => funext fun other => Assoc.get?_insert scope name other value
  obtain ⟨inner, root, index⟩ := s
  cases inner <;>
    simp [toStack, Scoped.bind, setCurrent, current, ScopeStack.bind, inserted]

theorem toStack_scopes (s : Scoped α) : s.toStack.scopes = s.scopes.map Assoc.get? := by
  simp [toStack, ScopeStack.scopes, scopes]

theorem toStack_current (s : Scoped α) : s.toStack.current = s.current.get? := by
  obtain ⟨inner, root, index⟩ := s
  cases inner <;> rfl

/-- What can be observed of scopes is what can be observed of a stack of maps. -/
structure Represents (s : Scoped α) (t : ScopeStack α) : Prop where
  lookup : ∀ name, s.lookup name = t.lookup name
  boundHere : ∀ name, s.boundHere name = (t.current name).isSome
  /-- The visible names are those that some scope binds, each once. -/
  visible : s.visible.Nodup ∧
    ∀ name, name ∈ s.visible ↔ ∃ scope ∈ t.scopes, (scope name).isSome = true
  /-- Binding gives back the earlier value in the innermost scope. -/
  bind : ∀ name value, (s.bind name value).1 = t.current name
  depth : s.depth = t.inner.length
  /-- Leaving fails exactly if only the root scope is left. -/
  root : s.leave? = none ↔ t.inner = []
  /-- A scope can be left in whatever order its names come. -/
  leaves : ∀ keys, s.inner ≠ [] → keys.Perm s.current.names →
    ∃ left, s.leaveInOrder? keys = some left

theorem represents_toStack (sound : s.Sound) : s.Represents s.toStack where
  lookup := by
    intro name
    rw [lookup_eq_innermost sound.toConsistent, ScopeStack.lookup, toStack_scopes, innermost,
      List.findSome?_map]
    rfl
  boundHere := by
    intro name
    rw [toStack_current]
    rfl
  visible := by
    refine ⟨sound.distinct, fun name => ?_⟩
    rw [mem_visible_iff sound.toConsistent, lookup_eq_innermost sound.toConsistent,
      toStack_scopes, innermost, List.findSome?_isSome_iff]
    simp
  bind := by
    intro name value
    rw [toStack_current]
    rfl
  depth := by simp [toStack, depth]
  root := by simp [leave?_eq_none_iff, toStack]
  leaves := by
    intro keys inside order
    obtain ⟨left, leaves, -⟩ := leaveInOrder?_sound sound inside order
    exact ⟨left, leaves⟩

/-! ## Runs -/

/-- The scopes inside have the root scope below them. -/
theorem toStack_run (sound : s.Sound) (runs : Runs s ops s') :
    s'.Sound ∧ s'.toStack = s.toStack.run ops := by
  induction runs with
  | done => exact ⟨sound, rfl⟩
  | enter _ ih =>
    rw [ScopeStack.run, ScopeStack.step, ← toStack_enter]
    exact ih (sound_enter sound)
  | @leave s left _ keys _ inside order leaves _ ih =>
    obtain ⟨left', leaves', sound', inner, root⟩ := leaveInOrder?_sound sound inside order
    rw [leaves, Option.some.injEq] at leaves'
    subst leaves'
    rw [ScopeStack.run, ScopeStack.step, ← toStack_leave inner root]
    exact ih sound'
  | stay root _ ih =>
    rw [ScopeStack.run, ScopeStack.step, leave_toStack root]
    exact ih sound
  | bind _ ih =>
    rw [ScopeStack.run, ScopeStack.step, ← toStack_bind]
    exact ih (sound_bind sound _ _)
  | withScope _ _ _ ihBody ihLeave ihRest =>
    obtain ⟨soundInside, inside⟩ := ihBody (sound_enter sound)
    obtain ⟨soundLeft, left⟩ := ihLeave soundInside
    rw [ScopeStack.run, ScopeStack.step, ← toStack_enter, ← inside]
    rw [ScopeStack.run, ScopeStack.step, ScopeStack.run] at left
    rw [← left]
    exact ihRest soundLeft

theorem step_leave (s : Scoped α) : s.step .leave = s.leave?.getD s := rfl

/-- Leaving is one of the runs that it may be, the one that takes names in the order of binding. -/
theorem runs_leave (sound : s.Sound) (after : Runs (s.step .leave) ops s') :
    Runs s (.leave :: ops) s' := by
  rw [step_leave] at after
  by_cases root : s.inner = []
  · rw [(leave?_eq_none_iff s).mpr root] at after
    exact .stay root after
  · obtain ⟨left, leaves, -⟩ := leaveInOrder?_sound sound root (List.Perm.refl _)
    have left? : s.leave? = some left := by rw [← leaveInOrder?_names sound root, leaves]
    rw [left?] at after
    exact .leave root (List.Perm.refl _) leaves after

/-- What is executed is a run. -/
theorem runs_run {s : Scoped α} (sound : s.Sound) :
    ∀ ops : List (ScopeOperation α), Runs s ops (s.run ops)
  | [] => by
    rw [run]
    exact .done
  | .enter :: rest => by
    rw [run, step]
    exact .enter (runs_run (sound_enter sound) rest)
  | .leave :: rest => by
    have leaves : Runs s [.leave] (s.step .leave) := runs_leave sound .done
    rw [run]
    exact runs_leave sound (runs_run (toStack_run sound leaves).1 rest)
  | .bind name value :: rest => by
    rw [run, step]
    exact .bind (runs_run (sound_bind sound name value) rest)
  | .withScope body :: rest => by
    have within := runs_run (sound_enter sound) body
    have inside := (toStack_run (sound_enter sound) within).1
    have leaves : Runs (s.enter.run body) [.leave] ((s.enter.run body).step .leave) :=
      runs_leave inside .done
    have stepped : s.step (.withScope body) = (s.enter.run body).step .leave := rfl
    rw [run, stepped]
    exact .withScope within leaves (runs_run (toStack_run inside leaves).1 rest)

/-! ## The main statement -/

/-- **Scopes with an index are a stack of maps.**  Any sequence of operations can be carried out on
new scopes, and in whatever order names are taken out of the index when a scope is left, the scopes
that result can be told in no way from the stack of maps on which the same operations were
performed.  A scope in use can again be left in any order. -/
theorem scoped_refines_stack (ops : List (ScopeOperation α)) :
    Runs (empty : Scoped α) ops (Scoped.run empty ops) ∧
      ∀ s : Scoped α, Runs empty ops s → s.Represents (ScopeStack.run ScopeStack.empty ops) := by
  refine ⟨runs_run sound_empty ops, fun s runs => ?_⟩
  obtain ⟨sound, stack⟩ := toStack_run sound_empty runs
  rw [← toStack_empty, ← stack]
  exact represents_toStack sound

/-- The name `x` is shadowed, bound again and seen from a scope inside; then two names are left
behind. -/
theorem scoped_refines_stack_shadowing :
    (Scoped.run (empty : Scoped Nat) [.bind "x" 1, .enter, .bind "x" 2, .bind "y" 3,
      .withScope [.bind "x" 4, .leave, .enter], .leave]).lookup "x" = some 1 ∧
    (Scoped.run (empty : Scoped Nat) [.bind "x" 1, .enter, .bind "x" 2, .bind "y" 3,
      .withScope [.bind "x" 4, .leave, .enter], .leave]).visible = ["x"] := by
  have represents := (scoped_refines_stack (α := Nat) [.bind "x" 1, .enter, .bind "x" 2,
    .bind "y" 3, .withScope [.bind "x" 4, .leave, .enter], .leave]).2 _
      (scoped_refines_stack _).1
  refine ⟨?_, ?_⟩
  · rw [represents.lookup]
    rfl
  · rfl

end Scoped

end SelfTyped
