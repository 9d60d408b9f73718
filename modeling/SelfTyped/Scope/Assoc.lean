/-
SelfTyped.Scope.Assoc — finite maps from names, as lists of entries.

A map holds at most one entry per name, in the order in which the names
were first entered.  The lemmas say what each operation does to `get?`,
which is all that a user of a map may look at besides its names.
-/
import SelfTyped.Text.Name

namespace SelfTyped

/-- A finite map from names. -/
abbrev Assoc (α : Type) := List (Name × α)

namespace Assoc

variable {α : Type}

/-- The value of a name. -/
def get? : Assoc α → Name → Option α
  | [], _ => none
  | (key, value) :: rest, name => if key = name then some value else get? rest name

/-- Gives a name a value, in place of the one it has, or after all entries. -/
def insert (name : Name) (value : α) : Assoc α → Assoc α
  | [] => [(name, value)]
  | (key, old) :: rest =>
    if key = name then (name, value) :: rest else (key, old) :: insert name value rest

/-- Removes the entry of a name. -/
def erase (name : Name) : Assoc α → Assoc α
  | [] => []
  | (key, value) :: rest => if key = name then rest else (key, value) :: erase name rest

/-- The names that have a value. -/
def names (map : Assoc α) : List Name :=
  map.map (·.1)

@[simp] theorem get?_nil (name : Name) : get? ([] : Assoc α) name = none := rfl

theorem get?_insert (map : Assoc α) (name other : Name) (value : α) :
    (map.insert name value).get? other = if name = other then some value else map.get? other := by
  induction map with
  | nil => rfl
  | cons entry rest ih =>
    obtain ⟨key, old⟩ := entry
    by_cases h : key = name
    · subst h
      by_cases hk : key = other <;> simp [insert, get?, hk]
    · by_cases hk : key = other
      · subst hk
        have hn : ¬ name = key := fun e => h e.symm
        simp [insert, get?, h, hn]
      · simp [insert, get?, h, hk, ih]

theorem get?_isSome (map : Assoc α) (name : Name) :
    (map.get? name).isSome = true ↔ name ∈ map.names := by
  induction map with
  | nil => simp [names]
  | cons entry rest ih =>
    obtain ⟨key, old⟩ := entry
    by_cases h : key = name
    · simp [get?, names, h]
    · have h' : ¬ name = key := fun e => h e.symm
      simp only [get?, h, if_false, ih]
      simp [names, h']

end Assoc

end SelfTyped
