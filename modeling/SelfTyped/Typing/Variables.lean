/-
SelfTyped.Typing.Variables — the variables of a class.

In the class scope `self` has type `SELF_TYPE`, and every attribute of
the class and its ancestors has its declared type.  The attributes of a
closer ancestor come first, and an inherited attribute comes before one
of the class itself: an attribute of the class whose name is taken is
reported and leaves the scope as it is.  Attributes named `self` are no
variables.
-/
import SelfTyped.Hierarchy.Basic
import SelfTyped.Scope.Basic
import SelfTyped.Typing.Error

namespace SelfTyped

/-- The declared types of variables. -/
abbrev Variables := Scoped Name

namespace Variables

/-- The variables that every class has. -/
def ofEveryClass : Variables :=
  (Scoped.empty.bind Known.self Known.selfType).2

/-- Adds an inherited attribute, unless its name is taken. -/
def inherit (vars : Variables) (a : AttributeSignature) : Variables :=
  if a.name = Known.self ∨ (vars.lookup a.name).isSome then vars
  else (vars.bind a.name a.type).2

/-- Adds an attribute of the class `c` itself. -/
def declare (c : ClassSignature) (state : Variables × List Finding) (a : AttributeSignature) :
    Variables × List Finding :=
  if a.name = Known.self then state
  else if (state.1.lookup a.name).isSome then
    (state.1, state.2 ++ [⟨⟨c.file, a.line⟩, .attributeRedefined a.name⟩])
  else ((state.1.bind a.name a.type).2, state.2)

/-- The class scope of a class, and the redefinitions found on the way. -/
def ofClass (h : Hierarchy) (c : ClassSignature) : Variables × List Finding :=
  let inherited := ((h.ancestors c.name).drop 1).flatMap ClassSignature.attributes
  c.attributes.foldl (declare c) (inherited.foldl inherit ofEveryClass, [])

end Variables

end SelfTyped
