/-
SelfTyped.Hierarchy.Signature — what is known of a class from outside.

A signature lists what a class declares, without initializers and
bodies.  Five classes are built in; their methods have no bodies to
check, and no place in the program is theirs.
-/
import SelfTyped.Program.Basic
import SelfTyped.Report.Diagnostic

namespace SelfTyped

/-- A parameter of a method. -/
structure Parameter where
  name : Name
  type : Name
  deriving DecidableEq, Repr

/-- An attribute as declared. -/
structure AttributeSignature where
  name : Name
  type : Name
  line : Nat
  deriving DecidableEq, Repr

/-- A method as declared in the class `owner`. -/
structure MethodSignature where
  name : Name
  owner : Name
  params : List Parameter
  returnType : Name
  line : Nat
  deriving DecidableEq, Repr

/-- A class as declared.  Only `Object` has no parent. -/
structure ClassSignature where
  name : Name
  parent : Option Name
  file : String
  line : Nat
  attributes : List AttributeSignature
  methods : List MethodSignature
  builtin : Bool
  deriving DecidableEq, Repr

namespace AttributeSignature

/-- The signature of an attribute of a program. -/
def ofAttribute (a : Attribute) : AttributeSignature :=
  ⟨a.name, a.type, a.line⟩

end AttributeSignature

namespace MethodSignature

/-- The signature of a method of a program that is declared in the class `owner`. -/
def ofMethod (owner : Name) (m : Method) : MethodSignature :=
  ⟨m.name, owner, m.formals.map fun f => ⟨f.name, f.type⟩, m.returnType, m.line⟩

end MethodSignature

namespace ClassSignature

/-- The signature of a class of a program. -/
def ofClass (c : Class) : ClassSignature where
  name := c.name
  parent := some c.parent
  file := c.file
  line := c.line
  attributes := c.attributes.map AttributeSignature.ofAttribute
  methods := c.methods.map (MethodSignature.ofMethod c.name)
  builtin := false

/-- Where a class is declared. -/
def location (c : ClassSignature) : Location :=
  ⟨c.file, c.line⟩

/-- A class and its parent. -/
def render (c : ClassSignature) : String :=
  "class " ++ c.name ++ ((c.parent.map fun parent => " inherits " ++ parent).getD "")

end ClassSignature

namespace Builtin

/-- An attribute of a built-in class. -/
def attr (name type : Name) : AttributeSignature :=
  ⟨name, type, 0⟩

/-- A method of the built-in class `owner`. -/
def method (owner name : Name) (params : List Parameter) (returnType : Name) : MethodSignature :=
  ⟨name, owner, params, returnType, 0⟩

/-- A built-in class. -/
def define (name : Name) (parent : Option Name) (attributes : List AttributeSignature)
    (methods : List MethodSignature) : ClassSignature :=
  ⟨name, parent, Known.builtinFile, 0, attributes, methods, true⟩

/-- The root of the hierarchy. -/
def object : ClassSignature :=
  define Known.object none []
    [method Known.object "abort" [] Known.object,
      method Known.object "type_name" [] Known.string,
      method Known.object "copy" [] Known.selfType]

/-- Input and output. -/
def inputOutput : ClassSignature :=
  define Known.inputOutput (some Known.object) []
    [method Known.inputOutput "out_string" [⟨"arg", Known.string⟩] Known.selfType,
      method Known.inputOutput "out_int" [⟨"arg", Known.int⟩] Known.selfType,
      method Known.inputOutput "in_string" [] Known.string,
      method Known.inputOutput "in_int" [] Known.int]

/-- Integers. -/
def int : ClassSignature :=
  define Known.int (some Known.object) [attr "_val" Known.rawSlot] []

/-- Truth values. -/
def bool : ClassSignature :=
  define Known.bool (some Known.object) [attr "_val" Known.rawSlot] []

/-- Strings. -/
def string : ClassSignature :=
  define Known.string (some Known.object)
    [attr "_val" Known.int, attr "_str_field" Known.rawSlot]
    [method Known.string "length" [] Known.int,
      method Known.string "concat" [⟨"arg", Known.string⟩] Known.string,
      method Known.string "substr" [⟨"arg", Known.int⟩, ⟨"arg2", Known.int⟩] Known.string]

/-- The built-in classes. -/
def classes : List ClassSignature :=
  [object, inputOutput, int, bool, string]

end Builtin

end SelfTyped
