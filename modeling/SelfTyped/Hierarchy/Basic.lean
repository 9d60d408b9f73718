/-
SelfTyped.Hierarchy.Basic — classes and how they inherit.

A hierarchy lists the known classes in the order in which they became
known.  The ancestors of a class are the class itself, its parent and so
on; a class conforms to its ancestors, and the join of two classes is
the first ancestor of the one to which the other conforms.

A walk along parents is bounded by the number of classes, so it ends in
every hierarchy.  In a hierarchy without cycles the bound is never met.
-/
import SelfTyped.Hierarchy.Signature

namespace SelfTyped

/-- The known classes, oldest first. -/
structure Hierarchy where
  classes : List ClassSignature
  deriving DecidableEq, Repr

namespace Hierarchy

/-- The built-in classes alone. -/
def builtin : Hierarchy :=
  ⟨Builtin.classes⟩

/-- The class of a name. -/
def find? (h : Hierarchy) (name : Name) : Option ClassSignature :=
  h.classes.find? fun c => c.name == name

/-- Whether a name is that of a class. -/
def isDefined (h : Hierarchy) (name : Name) : Bool :=
  (h.find? name).isSome

/-- At most `steps` classes on the way up from a class. -/
def ancestorsWithin (h : Hierarchy) : Nat → Option Name → List ClassSignature
  | 0, _ => []
  | _ + 1, none => []
  | steps + 1, some name =>
    match h.find? name with
    | none => []
    | some c => c :: h.ancestorsWithin steps c.parent

/-- A class and its ancestors, closest first.  There are none if the class is not known. -/
def ancestors (h : Hierarchy) (name : Name) : List ClassSignature :=
  h.ancestorsWithin h.classes.length (some name)

end Hierarchy

namespace Name

/-- The class that a type stands for inside the class `current`. -/
def resolve (current type : Name) : Name :=
  if type = Known.selfType then current else type

end Name

namespace Hierarchy

/-- Whether `sub` conforms to `sup` inside the class `current`. -/
def isSubclass (h : Hierarchy) (current sub sup : Name) : Bool :=
  (h.ancestors (Name.resolve current sub)).any fun c => c.name == Name.resolve current sup

/-- The closest common ancestor of `a` and `b` inside the class `current`. -/
def join (h : Hierarchy) (current a b : Name) : Name :=
  let candidates := (h.ancestors (Name.resolve current a)).map ClassSignature.name
  (candidates.find? fun candidate => h.isSubclass current b candidate).getD Known.object

end Hierarchy

end SelfTyped
