/-
SelfTyped.Hierarchy.Build — the hierarchy of a program.

The classes of a program join the built-in ones, in the order of
declaration.  Three things are required, and looked at in this order: no
name is declared twice, the class `Main` is there, and going up from any
class leads to `Object` through known classes that may be inherited
from.  The first violation is reported and ends the analysis.
-/
import SelfTyped.Hierarchy.Basic

namespace SelfTyped

/-- What can be wrong with a class hierarchy. -/
inductive HierarchyError where
  | basicClassRedefined (name : Name)
  | classRedefined (name : Name)
  | mainNotDefined
  | inheritsFromSealed (name parent : Name)
  | undefinedParent (name parent : Name)
  | inheritanceCycle (name : Name)
  deriving DecidableEq, Repr

/-- A violation, and the class declaration that it was found at. -/
structure Violation where
  location : Option Location
  error : HierarchyError
  deriving DecidableEq, Repr

namespace HierarchyError

/-- The wording of a violation. -/
def message : HierarchyError → String
  | .basicClassRedefined name => "redefinition of basic class " ++ name ++ "."
  | .classRedefined name => "redefinition of class " ++ name ++ "."
  | .mainNotDefined => "class Main is not defined."
  | .inheritsFromSealed name parent =>
    "class " ++ name ++ " cannot inherit class " ++ parent ++ "."
  | .undefinedParent name parent =>
    "class " ++ name ++ " inherits from an undefined class " ++ parent ++ "."
  | .inheritanceCycle name =>
    "class " ++ name ++ ", or an ancestor of " ++ name ++
      ", is involved in an inheritance cycle."

end HierarchyError

namespace Violation

/-- A violation as a diagnostic. -/
def diagnostic (v : Violation) : Diagnostic :=
  ⟨.error, v.location, v.error.message⟩

end Violation

namespace Hierarchy

/-- A violation that was found at a class. -/
def violationAt {α : Type} (c : ClassSignature) (error : HierarchyError) : Except Violation α :=
  .error ⟨some c.location, error⟩

/-- Adds the classes of a program.  A name that is taken already, or `SELF_TYPE`, is refused. -/
def register (h : Hierarchy) : List Class → Except Violation Hierarchy
  | [] => .ok h
  | c :: rest =>
    let signature := ClassSignature.ofClass c
    match h.find? c.name with
    | some existing =>
      violationAt signature
        (if existing.builtin then .basicClassRedefined c.name else .classRedefined c.name)
    | none =>
      if c.name = Known.selfType then violationAt signature (.basicClassRedefined c.name)
      else register ⟨h.classes ++ [signature]⟩ rest

/-- Goes up from the class `start` and has come to the class `current`; at most `steps` more
steps are taken.  A walk that is stuck in a cycle of other classes ends without a finding: the
cycle is found from one of its own classes. -/
def checkParents (h : Hierarchy) (start : Name) (steps : Nat) (current : ClassSignature) :
    Except Violation Unit :=
  match current.parent with
  | none => .ok ()
  | some parent =>
    if parent = Known.object then .ok ()
    else if parent.isSealed then violationAt current (.inheritsFromSealed current.name parent)
    else
      match h.find? parent with
      | none => violationAt current (.undefinedParent current.name parent)
      | some next =>
        if parent = start then violationAt current (.inheritanceCycle current.name)
        else
          match steps with
          | 0 => .ok ()
          | steps + 1 => h.checkParents start steps next

/-- Checks the way up from every class of a program. -/
def checkClasses (h : Hierarchy) : List Class → Except Violation Unit
  | [] => .ok ()
  | c :: rest => do
    h.checkParents c.name h.classes.length (ClassSignature.ofClass c)
    h.checkClasses rest

/-- The hierarchy of a program, or its first violation. -/
def build (program : Program) : Except Violation Hierarchy := do
  let h ← builtin.register program.classes
  if h.isDefined Known.main then do
    h.checkClasses program.classes
    return h
  else .error ⟨none, .mainNotDefined⟩

end Hierarchy

end SelfTyped
