/-
SelfTyped.Proofs.ScopeBindings — scopes and their index agree.

The index of a `Scoped` holds, for every bound name, the numbers of the
scopes that bind it.  `Consistent` says so, and is kept by entering a
scope and by binding.  Then a lookup is the innermost binding
(`lookup_eq_innermost`), and the lookup after each operation follows.

Leaving undoes entering: whatever was bound meanwhile, the scopes and the
index are exactly those from before (`leave?_enter`, `leave?_bind`).
This needs only that no name is left with an empty list of numbers.
-/
import Mathlib.Data.List.Nodup
import SelfTyped.Scope.Basic

namespace SelfTyped

namespace Assoc

variable {α : Type} {map : Assoc α} {name other : Name} {value v w : α}

/-! ## Finite maps -/

theorem get?_eq_none_iff : map.get? name = none ↔ name ∉ map.names := by
  rw [← get?_isSome, Bool.not_eq_true, Option.isSome_eq_false_iff, Option.isNone_iff_eq_none]

theorem mem_of_get? (found : map.get? name = some value) : (name, value) ∈ map := by
  induction map with
  | nil => simp at found
  | cons entry rest ih =>
    obtain ⟨key, old⟩ := entry
    by_cases same : key = name
    · simp only [get?, same, if_true, Option.some.injEq] at found
      rw [same, found]
      exact List.mem_cons_self
    · simp only [get?, same, if_false] at found
      exact List.mem_cons_of_mem _ (ih found)

/-- A new name is entered after all others. -/
theorem insert_of_not_mem (value : α) (fresh : name ∉ map.names) :
    map.insert name value = map ++ [(name, value)] := by
  induction map with
  | nil => rfl
  | cons entry rest ih =>
    obtain ⟨key, old⟩ := entry
    rw [names, List.map_cons, List.mem_cons, not_or] at fresh
    rw [insert, if_neg (Ne.symm fresh.1), ih fresh.2, List.cons_append]

theorem names_insert_of_mem (value : α) (known : name ∈ map.names) :
    (map.insert name value).names = map.names := by
  induction map with
  | nil => simp [names] at known
  | cons entry rest ih =>
    obtain ⟨key, old⟩ := entry
    by_cases same : key = name
    · simp [insert, names, same]
    · rw [names, List.map_cons, List.mem_cons] at known
      have deeper := ih (known.resolve_left (Ne.symm same))
      simp only [names] at deeper
      simp [insert, names, same, deeper]

theorem names_insert_nodup (value : α) (distinct : map.names.Nodup) :
    (map.insert name value).names.Nodup := by
  by_cases known : name ∈ map.names
  · rw [names_insert_of_mem value known]
    exact distinct
  · rw [insert_of_not_mem value known, names, List.map_append, List.nodup_append]
    refine ⟨distinct, List.nodup_singleton _, ?_⟩
    rintro key hkey _ hlast rfl
    rw [List.map_singleton, List.mem_singleton] at hlast
    rw [hlast] at hkey
    exact known hkey

theorem erase_insert_of_not_mem (value : α) (fresh : name ∉ map.names) :
    (map.insert name value).erase name = map := by
  induction map with
  | nil => simp [insert, erase]
  | cons entry rest ih =>
    obtain ⟨key, old⟩ := entry
    rw [names, List.map_cons, List.mem_cons, not_or] at fresh
    rw [insert, if_neg (Ne.symm fresh.1), erase, if_neg (Ne.symm fresh.1), ih fresh.2]

theorem insert_insert_self (found : map.get? name = some v) (w : α) :
    (map.insert name w).insert name v = map := by
  induction map with
  | nil => simp at found
  | cons entry rest ih =>
    obtain ⟨key, old⟩ := entry
    by_cases same : key = name
    · simp only [get?, same, if_true, Option.some.injEq] at found
      simp [insert, same, found]
    · simp only [get?, same, if_false] at found
      simp [insert, same, ih found]

theorem erase_insert_comm (different : other ≠ name) (value : α) :
    (map.insert name value).erase other = (map.erase other).insert name value := by
  induction map with
  | nil => simp [insert, erase, Ne.symm different]
  | cons entry rest ih =>
    obtain ⟨key, old⟩ := entry
    by_cases same : key = name
    · subst same
      simp [insert, erase, Ne.symm different]
    · by_cases hit : key = other
      · subst hit
        simp [insert, erase, same]
      · simp [insert, erase, same, hit, ih]

theorem insert_insert_comm (different : other ≠ name) (known : other ∈ map.names) (v w : α) :
    (map.insert name v).insert other w = (map.insert other w).insert name v := by
  induction map with
  | nil => simp [names] at known
  | cons entry rest ih =>
    obtain ⟨key, old⟩ := entry
    by_cases same : key = name
    · subst same
      simp [insert, Ne.symm different]
    · by_cases hit : key = other
      · subst hit
        simp [insert, same]
      · rw [names, List.map_cons, List.mem_cons] at known
        simp [insert, same, hit, ih (known.resolve_left (Ne.symm hit))]

end Assoc

namespace Scoped

variable {α : Type} {s : Scoped α} {name other : Name} {value : α} {number : Nat}
  {index : Assoc (List Nat)} {scope : Assoc α} {stack : List (Assoc α)}

/-! ## The invariant -/

/-- All scopes, innermost first. -/
def scopes (s : Scoped α) : List (Assoc α) :=
  s.inner ++ [s.root]

/-- The value of a name in the first of some scopes that binds it. -/
def innermost (stack : List (Assoc α)) (name : Name) : Option α :=
  stack.findSome? fun scope => scope.get? name

/-- The numbers of the scopes that bind a name, given all scopes innermost first. -/
def bindingNumbers (name : Name) : List (Assoc α) → List Nat
  | [] => []
  | scope :: outer =>
    if (scope.get? name).isSome then outer.length :: bindingNumbers name outer
    else bindingNumbers name outer

/-- No name has an empty list of numbers. -/
def NoEmpty (index : Assoc (List Nat)) : Prop :=
  ∀ entry ∈ index, entry.2 ≠ []

/-- The index says which scopes bind a name. -/
structure Consistent (s : Scoped α) : Prop where
  distinct : s.index.names.Nodup
  noEmpty : NoEmpty s.index
  numbers : ∀ name, (s.index.get? name).getD [] = bindingNumbers name s.scopes

theorem scopes_eq_cons (s : Scoped α) : ∃ outer, s.scopes = s.current :: outer ∧
    outer.length = s.depth ∧ ∀ scope, (s.setCurrent scope).scopes = scope :: outer := by
  obtain ⟨inner, root, index⟩ := s
  cases inner with
  | nil => exact ⟨[], rfl, rfl, fun _ => rfl⟩
  | cons scope outer =>
    refine ⟨outer ++ [root], rfl, ?_, fun _ => rfl⟩
    rw [List.length_append, List.length_singleton]
    rfl

/-! ## Lookups -/

theorem lt_of_mem_bindingNumbers (hn : number ∈ bindingNumbers name stack) :
    number < stack.length := by
  induction stack with
  | nil => simp [bindingNumbers] at hn
  | cons scope outer ih =>
    rw [bindingNumbers] at hn
    rw [List.length_cons]
    split at hn
    · rcases List.mem_cons.mp hn with rfl | hn
      · exact Nat.lt_succ_self _
      · exact Nat.lt_succ_of_lt (ih hn)
    · exact Nat.lt_succ_of_lt (ih hn)

/-- The first number is that of the innermost scope that binds the name. -/
theorem head_bindingNumbers (stack : List (Assoc α)) (name : Name) :
    ((bindingNumbers name stack).head?.bind fun number =>
      (stack.reverse[number]?).bind fun scope => scope.get? name) = innermost stack name := by
  induction stack with
  | nil => rfl
  | cons scope outer ih =>
    rw [innermost, List.findSome?_cons, bindingNumbers, List.reverse_cons]
    cases bound : scope.get? name with
    | some value => simp [bound]
    | none =>
      rw [if_neg (by simp), ← innermost, ← ih]
      cases first : (bindingNumbers name outer).head? with
      | none => rfl
      | some number =>
        have hlt := lt_of_mem_bindingNumbers (List.mem_of_head? first)
        rw [Option.bind_some, Option.bind_some, List.getElem?_append_left (by simpa using hlt)]

/-- A lookup finds the innermost binding. -/
theorem lookup_eq_innermost (consistent : s.Consistent) (name : Name) :
    s.lookup name = innermost s.scopes name := by
  have numbers := consistent.numbers name
  rw [← head_bindingNumbers, ← numbers, lookup]
  cases s.index.get? name with
  | none => rfl
  | some numbers =>
    cases numbers with
    | nil => rfl
    | cons number rest => rfl

theorem innermost_isSome (stack : List (Assoc α)) (name : Name) :
    (innermost stack name).isSome = true ↔ bindingNumbers name stack ≠ [] := by
  induction stack with
  | nil => simp [innermost, bindingNumbers]
  | cons scope outer ih =>
    rw [innermost, List.findSome?_cons, bindingNumbers]
    cases bound : scope.get? name with
    | some value => simp
    | none => simpa [innermost] using ih

/-- The visible names are those with a value. -/
theorem mem_visible_iff (consistent : s.Consistent) :
    name ∈ s.visible ↔ (s.lookup name).isSome = true := by
  rw [lookup_eq_innermost consistent, innermost_isSome, ← consistent.numbers, visible,
    ← Assoc.get?_isSome]
  cases found : s.index.get? name with
  | none => simp
  | some numbers => simpa using consistent.noEmpty _ (Assoc.mem_of_get? found)

/-! ## The invariant is kept -/

theorem consistent_empty : (empty : Scoped α).Consistent where
  distinct := List.nodup_nil
  noEmpty := by
    intro entry mem
    exact absurd mem (by simp [empty])
  numbers := by
    intro name
    rfl

theorem scopes_enter (s : Scoped α) : s.enter.scopes = [] :: s.scopes := rfl

theorem consistent_enter (consistent : s.Consistent) : s.enter.Consistent where
  distinct := consistent.distinct
  noEmpty := consistent.noEmpty
  numbers := by
    intro name
    rw [scopes_enter, bindingNumbers]
    exact consistent.numbers name

theorem noEmpty_insert (noEmpty : NoEmpty index) {numbers : List Nat} (filled : numbers ≠ []) :
    NoEmpty (index.insert name numbers) := by
  induction index with
  | nil =>
    intro entry mem
    rw [Assoc.insert, List.mem_singleton] at mem
    rw [mem]
    exact filled
  | cons first rest ih =>
    obtain ⟨key, old⟩ := first
    have tail : NoEmpty rest := fun entry mem => noEmpty entry (List.mem_cons_of_mem _ mem)
    intro entry mem
    rw [Assoc.insert] at mem
    split at mem
    · rcases List.mem_cons.mp mem with rfl | mem
      · exact filled
      · exact tail entry mem
    · rcases List.mem_cons.mp mem with rfl | mem
      · exact noEmpty _ List.mem_cons_self
      · exact ih tail entry mem

theorem bind_index (s : Scoped α) (name : Name) (value : α) :
    (s.bind name value).2.index =
      if s.boundHere name then s.index else noteBinding s.index s.depth name := rfl

theorem bind_scopes (s : Scoped α) (name : Name) (value : α) :
    ∃ outer, s.scopes = s.current :: outer ∧ outer.length = s.depth ∧
      (s.bind name value).2.scopes = s.current.insert name value :: outer := by
  obtain ⟨outer, split, hlen, replaced⟩ := s.scopes_eq_cons
  exact ⟨outer, split, hlen, replaced _⟩

theorem consistent_bind (consistent : s.Consistent) (name : Name) (value : α) :
    (s.bind name value).2.Consistent := by
  obtain ⟨outer, split, hlen, bound⟩ := s.bind_scopes name value
  have numbers := consistent.numbers
  rw [split] at numbers
  cases here : s.boundHere name with
  | true =>
    have known : (s.current.get? name).isSome = true := here
    refine ⟨?_, ?_, ?_⟩
    · rw [bind_index, here]
      exact consistent.distinct
    · rw [bind_index, here]
      exact consistent.noEmpty
    · intro other
      rw [bind_index, here, if_pos rfl, bound, numbers, bindingNumbers, bindingNumbers,
        Assoc.get?_insert]
      by_cases same : name = other
      · rw [← same, if_pos known, if_pos rfl]
        rfl
      · rw [if_neg same]
  | false =>
    have fresh : (s.current.get? name).isSome = false := here
    have outerNumbers : (s.index.get? name).getD [] = bindingNumbers name outer := by
      rw [numbers, bindingNumbers, fresh]
      rfl
    refine ⟨?_, ?_, ?_⟩
    · rw [bind_index, here]
      exact Assoc.names_insert_nodup _ consistent.distinct
    · rw [bind_index, here]
      exact noEmpty_insert consistent.noEmpty (by simp)
    · intro other
      rw [bind_index, here, if_neg (by simp), noteBinding, bound, bindingNumbers,
        Assoc.get?_insert, Assoc.get?_insert]
      by_cases same : name = other
      · subst same
        rw [if_pos rfl, if_pos rfl, Option.getD_some, outerNumbers, hlen]
        rfl
      · rw [if_neg same, if_neg same, numbers, bindingNumbers]

/-! ## Lookups after an operation -/

theorem lookup_empty (name : Name) : (empty : Scoped α).lookup name = none := rfl

theorem lookup_enter (consistent : s.Consistent) (name : Name) :
    s.enter.lookup name = s.lookup name := by
  rw [lookup_eq_innermost (consistent_enter consistent), lookup_eq_innermost consistent,
    scopes_enter]
  rfl

theorem lookup_bind (consistent : s.Consistent) (name other : Name) (value : α) :
    (s.bind name value).2.lookup other = if name = other then some value else s.lookup other := by
  obtain ⟨outer, split, _, bound⟩ := s.bind_scopes name value
  rw [lookup_eq_innermost (consistent_bind consistent name value),
    lookup_eq_innermost consistent, split, bound, innermost, innermost, List.findSome?_cons,
    List.findSome?_cons, Assoc.get?_insert]
  by_cases same : name = other
  · rw [if_pos same, if_pos same]
  · rw [if_neg same, if_neg same]

theorem boundHere_enter (s : Scoped α) (name : Name) : s.enter.boundHere name = false := rfl

theorem current_bind (s : Scoped α) (name : Name) (value : α) :
    (s.bind name value).2.current = s.current.insert name value := by
  obtain ⟨inner, root, index⟩ := s
  cases inner <;> rfl

theorem boundHere_bind (s : Scoped α) (name other : Name) (value : α) :
    (s.bind name value).2.boundHere other = (decide (name = other) || s.boundHere other) := by
  rw [boundHere, boundHere, current_bind, Assoc.get?_insert]
  by_cases same : name = other
  · simp [same]
  · simp [same]

/-! ## Leaving a scope -/

/-- The index after a scope with some names is left. -/
def dropAll (index : Assoc (List Nat)) (names : List Name) : Assoc (List Nat) :=
  names.foldl dropBinding index

theorem dropBinding_noteBinding (noEmpty : NoEmpty index) :
    dropBinding (noteBinding index number name) name = index := by
  cases found : index.get? name with
  | none =>
    have fresh := Assoc.get?_eq_none_iff.mp found
    rw [dropBinding, noteBinding, Assoc.get?_insert, if_pos rfl, found, Option.getD_none]
    exact Assoc.erase_insert_of_not_mem _ fresh
  | some numbers =>
    cases numbers with
    | nil => exact absurd rfl (noEmpty _ (Assoc.mem_of_get? found))
    | cons first rest =>
      rw [dropBinding, noteBinding, Assoc.get?_insert, if_pos rfl, found, Option.getD_some]
      exact Assoc.insert_insert_self found _

theorem get?_dropBinding (different : other ≠ name) :
    (dropBinding index other).get? name = index.get? name := by
  have erased : ∀ map : Assoc (List Nat), (map.erase other).get? name = map.get? name := by
    intro map
    induction map with
    | nil => rfl
    | cons entry rest ih =>
      obtain ⟨key, old⟩ := entry
      by_cases hit : key = other
      · subst hit
        simp [Assoc.erase, Assoc.get?, different]
      · simp [Assoc.erase, Assoc.get?, hit, ih]
  rw [dropBinding]
  split
  · rw [Assoc.get?_insert, if_neg different]
  · exact erased index

/-- Dropping one name and noting another do not interfere. -/
theorem dropBinding_noteBinding_comm (different : other ≠ name) :
    dropBinding (noteBinding index number name) other =
      noteBinding (dropBinding index other) number name := by
  rw [noteBinding, noteBinding, get?_dropBinding different, dropBinding, dropBinding,
    Assoc.get?_insert, if_neg (Ne.symm different)]
  split
  · next found =>
    rw [Assoc.insert_insert_comm different]
    rw [← Assoc.get?_isSome, found]
    rfl
  · exact Assoc.erase_insert_comm different _

theorem dropAll_noteBinding {names : List Name} (fresh : name ∉ names) :
    dropAll (noteBinding index number name) names =
      noteBinding (dropAll index names) number name := by
  induction names generalizing index with
  | nil => rfl
  | cons first rest ih =>
    rw [List.mem_cons, not_or] at fresh
    rw [dropAll, dropAll, List.foldl_cons, List.foldl_cons,
      dropBinding_noteBinding_comm (Ne.symm fresh.1)]
    exact ih fresh.2

theorem noEmpty_erase (noEmpty : NoEmpty index) : NoEmpty (index.erase name) := by
  induction index with
  | nil => exact noEmpty
  | cons first rest ih =>
    obtain ⟨key, old⟩ := first
    have tail : NoEmpty rest := fun entry mem => noEmpty entry (List.mem_cons_of_mem _ mem)
    rw [Assoc.erase]
    split
    · exact tail
    · intro entry mem
      rcases List.mem_cons.mp mem with rfl | mem
      · exact noEmpty _ List.mem_cons_self
      · exact ih tail entry mem

theorem noEmpty_dropAll (noEmpty : NoEmpty index) (names : List Name) :
    NoEmpty (dropAll index names) := by
  induction names generalizing index with
  | nil => exact noEmpty
  | cons first rest ih =>
    have dropped : NoEmpty (dropBinding index first) → NoEmpty (dropAll index (first :: rest)) := ih
    refine dropped ?_
    rw [dropBinding]
    split
    · exact noEmpty_insert noEmpty (by simp)
    · exact noEmpty_erase noEmpty

/-- Leaving undoes entering. -/
theorem leave?_enter (s : Scoped α) : s.enter.leave? = some s := rfl

/-- What is bound in a scope plays no part once the scope is left. -/
theorem leave?_bind (noEmpty : NoEmpty s.index) (inside : s.inner ≠ [])
    (fresh : s.boundHere name = false) : (s.bind name value).2.leave? = s.leave? := by
  obtain ⟨inner, root, index⟩ := s
  cases inner with
  | nil => exact absurd rfl inside
  | cons scope outer =>
    have absent : name ∉ scope.names := by
      rw [← Assoc.get?_eq_none_iff, ← Option.isNone_iff_eq_none, ← Option.isSome_eq_false_iff]
      exact fresh
    have bound : (Scoped.bind ⟨scope :: outer, root, index⟩ name value).2 =
        ⟨scope.insert name value :: outer, root,
          noteBinding index (outer.length + 1) name⟩ := by
      have fresh : (scope.get? name).isSome = false := fresh
      simp only [Scoped.bind, current, List.headD_cons, fresh]
      rfl
    rw [bound, leave?, leave?, Assoc.insert_of_not_mem value absent]
    have restored : dropAll (noteBinding index (outer.length + 1) name) (scope.names ++ [name]) =
        dropAll index scope.names := by
      rw [dropAll, List.foldl_append]
      change dropBinding (dropAll _ scope.names) name = _
      rw [dropAll_noteBinding absent]
      exact dropBinding_noteBinding (noEmpty_dropAll noEmpty _)
    simp only [dropAll, Assoc.names] at restored
    simp only [Assoc.names, List.map_append, List.map_singleton, restored]

end Scoped

end SelfTyped
