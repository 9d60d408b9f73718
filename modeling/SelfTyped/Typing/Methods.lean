/-
SelfTyped.Typing.Methods — which declaration a method name refers to.

The table holds, for every class, the first declaration of each method
name in it; a further one is reported.  Inherited methods are found by
going up the hierarchy.
-/
import SelfTyped.Hierarchy.Basic
import SelfTyped.Typing.Error

namespace SelfTyped

/-- The methods that can be called, in the order of declaration. -/
structure MethodTable where
  methods : List MethodSignature
  deriving DecidableEq, Repr

namespace MethodTable

/-- The method that a class itself declares under a name. -/
def declared? (table : MethodTable) (owner name : Name) : Option MethodSignature :=
  table.methods.find? fun m => m.owner == owner && m.name == name

/-- Adds a method of the class `c`, unless the class declares its name already. -/
def add (c : ClassSignature) (state : MethodTable × List Finding) (m : MethodSignature) :
    MethodTable × List Finding :=
  if (state.1.declared? m.owner m.name).isSome then
    (state.1, state.2 ++ [⟨⟨c.file, m.line⟩, .methodRedefined m.name⟩])
  else (⟨state.1.methods ++ [m]⟩, state.2)

/-- Adds the methods of a class. -/
def addClass (state : MethodTable × List Finding) (c : ClassSignature) :
    MethodTable × List Finding :=
  c.methods.foldl (add c) state

/-- The table of a hierarchy, and the redeclarations found on the way. -/
def build (h : Hierarchy) : MethodTable × List Finding :=
  h.classes.foldl addClass (⟨[]⟩, [])

/-- The method that a call on the class `name` refers to: the closest declaration upwards. -/
def resolve? (table : MethodTable) (h : Hierarchy) (name method : Name) :
    Option MethodSignature :=
  (h.ancestors name).findSome? fun c => table.declared? c.name method

/-- The number of methods. -/
def size (table : MethodTable) : Nat :=
  table.methods.length

end MethodTable

end SelfTyped
