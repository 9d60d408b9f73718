/-
SelfTyped.Typing.Setting — what the typing rules refer to.

While a class is checked its hierarchy, the method table, the class
itself and the nesting limit stay as they are (`Setting`).  Here are the
relations between types that the rules use, and the part of each rule
that looks at types only: given the types of the parts of an expression
it decides the type of the whole and finds what is wrong.

A type that names no class was reported where it was declared.  It
conforms to every type, so that one mistake is not reported twice.
-/
import SelfTyped.Typing.Methods
import SelfTyped.Typing.Variables

namespace SelfTyped

/-- What stays the same while a class is checked. -/
structure Setting where
  hierarchy : Hierarchy
  methods : MethodTable
  current : ClassSignature
  maxDepth : Nat

namespace Setting

/-! ## Types -/

/-- Whether a type may be declared for an attribute, a variable or the result of a method. -/
def isDeclarable (g : Setting) (type : Name) : Bool :=
  type == Known.selfType || g.hierarchy.isDefined type

/-- Whether a value of type `sub` may stand where one of type `sup` is declared. -/
def conforms (g : Setting) (sub sup : Name) : Bool :=
  !g.isDeclarable sub || !g.isDeclarable sup || g.hierarchy.isSubclass g.current.name sub sup

/-- The type of an expression that has one of two types. -/
def join (g : Setting) (a b : Name) : Name :=
  if a = b then a else g.hierarchy.join g.current.name a b

/-! ## Findings -/

/-- An error at a line of the class. -/
def report (g : Setting) (line : Nat) (error : TypeError) : List Finding :=
  [⟨⟨g.current.file, line⟩, error⟩]

/-- An error at a line of the class, unless a condition holds. -/
def require (g : Setting) (condition : Bool) (line : Nat) (error : TypeError) : List Finding :=
  if condition then [] else g.report line error

/-! ## Rules -/

/-- The type of a variable. -/
def checkObject (g : Setting) (vars : Variables) (line : Nat) (name : Name) :
    Name × List Finding :=
  match vars.lookup name with
  | some type => (type, [])
  | none =>
    (Known.object,
      g.report line (.undeclaredIdentifier name (mostRelated name vars.visible)))

/-- An assignment of a value of type `type`. -/
def checkAssign (g : Setting) (vars : Variables) (line : Nat) (name type : Name) :
    Name × List Finding :=
  if name = Known.self then (Known.object, g.report line .assignToSelf)
  else
    match vars.lookup name with
    | none =>
      (Known.object,
        g.report line (.assignToUndeclared name (mostRelated name vars.visible)))
    | some declared =>
      if g.conforms type declared then (type, [])
      else (Known.object, g.report line (.assignMismatch name type declared))

/-- The arguments of a call against the parameters of the method. -/
def checkArgs (g : Setting) (line : Nat) (m : MethodSignature) (argTypes : List Name) :
    List Finding :=
  if m.params.length = argTypes.length then
    (m.params.zip argTypes).flatMap fun (param, type) =>
      g.require (g.conforms type param.type) line
        (.argumentMismatch m.name param.name type param.type)
  else g.report line (.wrongArity m.name m.params.length argTypes.length)

/-- A call of a method that is sought from the class `start` on.  A result of type `SELF_TYPE`
has the type of the receiver. -/
def checkCall (g : Setting) (line : Nat) (start method receiverType : Name)
    (argTypes : List Name) : Name × List Finding :=
  match g.methods.resolve? g.hierarchy start method with
  | none => (Known.object, g.report line (.undefinedMethod method))
  | some m =>
    (if m.returnType = Known.selfType then receiverType else m.returnType,
      g.checkArgs line m argTypes)

/-- A dispatch on a receiver of type `receiverType`. -/
def checkDispatch (g : Setting) (line : Nat) (method receiverType : Name)
    (argTypes : List Name) : Name × List Finding :=
  let start := Name.resolve g.current.name receiverType
  if g.hierarchy.isDefined start then g.checkCall line start method receiverType argTypes
  else (Known.object, [])

/-- A dispatch to the method of the class `type`. -/
def checkStaticDispatch (g : Setting) (line : Nat) (type method receiverType : Name)
    (argTypes : List Name) : Name × List Finding :=
  if type = Known.selfType then (Known.object, g.report line .staticDispatchToSelfType)
  else if g.hierarchy.isDefined type then
    let (result, findings) := g.checkCall line type method receiverType argTypes
    (result,
      g.require (g.conforms receiverType type) line (.staticDispatchMismatch receiverType type) ++
        findings)
  else (Known.object, g.report line (.staticDispatchToUndefinedClass type))

/-- The declaration of a branch, given the types of the branches before it. -/
def checkBranch (g : Setting) (line : Nat) (earlier : List Name) (name type : Name) :
    List Finding :=
  g.require (!earlier.contains type) line (.duplicateCaseBranch type) ++
    (g.require (name != Known.self) line .selfInCase ++
      if type = Known.selfType then g.report line (.selfTypeCaseBranch name)
      else g.require (g.hierarchy.isDefined type) line (.undefinedCaseBranchType type))

/-- The declaration of a `let` variable.  `init` is the type of its initializer, if it has
one. -/
def checkLet (g : Setting) (line : Nat) (name type : Name) (init : Option Name) :
    List Finding :=
  g.require (name != Known.self) line .selfInLet ++
    (g.require (g.isDeclarable type) line (.undefinedLetType name type) ++
      match init with
      | none => []
      | some actual =>
        g.require (g.conforms actual type) line (.letInitMismatch name actual type))

/-- A binary operation on operands of the given types. -/
def checkBinary (g : Setting) (line : Nat) (op : Operator) (left right : Name) :
    Name × List Finding :=
  match op with
  | .equal =>
    let basic := left.isBasicValue || right.isBasicValue
    (Known.bool, g.require (!basic || left == right) line .illegalComparison)
  | op =>
    if left = Known.int ∧ right = Known.int then
      (if op.isArithmetic then Known.int else Known.bool, [])
    else
      (if op.isArithmetic then Known.object else Known.bool,
        g.report line (.nonIntArguments left op right))

/-- The creation of an object. -/
def checkNew (g : Setting) (line : Nat) (type : Name) : Name × List Finding :=
  if g.isDeclarable type then (type, [])
  else (Known.object, g.report line (.newUndefinedClass type))

end Setting

end SelfTyped
