/-
SelfTyped.Typing.Places — what an error is about, and where that is.

Every type error is about one construct: an expression, a branch of a
`case` expression, a formal parameter or a feature.  It is reported at the
line of that construct, but for a value that does not have the declared
type: there it is the line of the initializer or body (`Construct.Fault`).
The names in an error that are not types found on the way are names of the
construct.

A violation of the hierarchy is about a class.  Only that there is no class
`Main` has no place in the program.
-/
import SelfTyped.Program.Construct
import SelfTyped.Typing.Analysis

namespace SelfTyped

/-! ## Constructs of a class -/

/-- A construct holds itself and what its parts hold. -/
inductive Construct.Holds : Construct → Construct → Prop
  | here {construct : Construct} : Holds construct construct
  | inside {outer part inner : Construct} (mem : part ∈ outer.parts) (holds : Holds part inner) :
      Holds outer inner

/-- The constructs of a class: its features and what is inside them. -/
def Class.Has (c : Class) (construct : Construct) : Prop :=
  ∃ feature ∈ c.features, (Construct.feature feature).Holds construct

/-! ## Type errors -/

/-- The method that an expression calls. -/
def Form.calledMethod? : Form → Option Name
  | .dispatch _ method _ => some method
  | .staticDispatch _ _ method _ => some method
  | _ => none

/-- The errors that there can be about an expression. -/
inductive Form.Fault : Form → TypeError → Prop
  | undeclared (name : Name) (hint : Option Name) :
      Fault (.object name) (.undeclaredIdentifier name hint)
  | assignToSelf (value : Expr) : Fault (.assign Known.self value) .assignToSelf
  | assignToUndeclared (name : Name) (value : Expr) (hint : Option Name) :
      Fault (.assign name value) (.assignToUndeclared name hint)
  | assignMismatch (name actual declared : Name) (value : Expr) :
      Fault (.assign name value) (.assignMismatch name actual declared)
  | undefinedMethod {form : Form} {method : Name} (calls : form.calledMethod? = some method) :
      Fault form (.undefinedMethod method)
  | wrongArity {form : Form} {method : Name} (calls : form.calledMethod? = some method)
      (expected actual : Nat) : Fault form (.wrongArity method expected actual)
  | argumentMismatch {form : Form} {method : Name} (calls : form.calledMethod? = some method)
      (param actual declared : Name) : Fault form (.argumentMismatch method param actual declared)
  | staticDispatchToSelfType (receiver : Expr) (method : Name) (args : List Expr) :
      Fault (.staticDispatch receiver Known.selfType method args) .staticDispatchToSelfType
  | staticDispatchToUndefinedClass (receiver : Expr) (type method : Name) (args : List Expr) :
      Fault (.staticDispatch receiver type method args) (.staticDispatchToUndefinedClass type)
  | staticDispatchMismatch (receiver : Expr) (actual type method : Name) (args : List Expr) :
      Fault (.staticDispatch receiver type method args) (.staticDispatchMismatch actual type)
  | ifPredicateNotBool (predicate thenArm elseArm : Expr) :
      Fault (.cond predicate thenArm elseArm) .ifPredicateNotBool
  | loopConditionNotBool (condition body : Expr) :
      Fault (.loop condition body) .loopConditionNotBool
  | selfInLet (type : Name) (init body : Expr) : Fault (.letIn Known.self type init body) .selfInLet
  | undefinedLetType (name type : Name) (init body : Expr) :
      Fault (.letIn name type init body) (.undefinedLetType name type)
  | letInitMismatch (name actual type : Name) (init body : Expr) :
      Fault (.letIn name type init body) (.letInitMismatch name actual type)
  | nonIntArguments (left right : Name) {op : Operator} (notEqual : op ≠ .equal)
      (first second : Expr) : Fault (.binary op first second) (.nonIntArguments left op right)
  | illegalComparison (first second : Expr) :
      Fault (.binary .equal first second) .illegalComparison
  | negateNotInt (type : Name) (operand : Expr) : Fault (.negate operand) (.negateNotInt type)
  | complementNotBool (type : Name) (operand : Expr) :
      Fault (.complement operand) (.complementNotBool type)
  | newUndefinedClass (type : Name) : Fault (.new type) (.newUndefinedClass type)
  | nestingTooDeep (form : Form) (limit : Nat) : Fault form (.nestingTooDeep limit)

/-- The errors that there can be about a construct, and the lines at which they are reported. -/
inductive Construct.Fault : Construct → Nat → TypeError → Prop
  | expr (line : Nat) {form : Form} {error : TypeError} (fault : form.Fault error) :
      Fault (.expr ⟨line, form⟩) line error
  | duplicateCaseBranch (decl : Branch) :
      Fault (.branch decl) decl.line (.duplicateCaseBranch decl.type)
  | selfInCase (decl : Branch) (isSelf : decl.name = Known.self) :
      Fault (.branch decl) decl.line .selfInCase
  | selfTypeCaseBranch (decl : Branch) (isSelfType : decl.type = Known.selfType) :
      Fault (.branch decl) decl.line (.selfTypeCaseBranch decl.name)
  | undefinedCaseBranchType (decl : Branch) :
      Fault (.branch decl) decl.line (.undefinedCaseBranchType decl.type)
  | selfFormal (decl : Formal) (isSelf : decl.name = Known.self) :
      Fault (.formal decl) decl.line .selfFormal
  | duplicateFormal (decl : Formal) : Fault (.formal decl) decl.line (.duplicateFormal decl.name)
  | selfTypeFormal (decl : Formal) (isSelfType : decl.type = Known.selfType) :
      Fault (.formal decl) decl.line (.selfTypeFormal decl.name)
  | undefinedFormalType (decl : Formal) :
      Fault (.formal decl) decl.line (.undefinedFormalType decl.name decl.type)
  | selfAttribute (decl : Attribute) (isSelf : decl.name = Known.self) :
      Fault (.feature (.attr decl)) decl.line .selfAttribute
  | attributeRedefined (decl : Attribute) :
      Fault (.feature (.attr decl)) decl.line (.attributeRedefined decl.name)
  | undefinedAttributeType (decl : Attribute) :
      Fault (.feature (.attr decl)) decl.line (.undefinedAttributeType decl.name decl.type)
  | attributeInitMismatch (decl : Attribute) (actual : Name) :
      Fault (.feature (.attr decl)) decl.init.line
        (.attributeInitMismatch decl.name actual decl.type)
  | methodRedefined (decl : Method) :
      Fault (.feature (.method decl)) decl.line (.methodRedefined decl.name)
  | undefinedReturnType (decl : Method) :
      Fault (.feature (.method decl)) decl.line (.undefinedReturnType decl.name decl.returnType)
  | returnTypeMismatch (decl : Method) (actual : Name) :
      Fault (.feature (.method decl)) decl.body.line
        (.returnTypeMismatch decl.name actual decl.returnType)

/-- A finding is about a construct that stands in a file. -/
structure Finding.IsAbout (f : Finding) (file : String) (construct : Construct) : Prop where
  file : f.location.file = file
  fault : construct.Fault f.location.line f.error

/-- A finding has its place in a class. -/
structure Class.Locates (c : Class) (f : Finding) : Prop where
  /-- It is about a construct of the class, in the file of the class. -/
  about : ∃ construct, c.Has construct ∧ f.IsAbout c.file construct
  /-- Its line is that of a construct of the class. -/
  line : ∃ construct, c.Has construct ∧ construct.line = f.location.line

/-! ## Diagnostics -/

/-- The class that a violation of the hierarchy is about. -/
def HierarchyError.subject? : HierarchyError → Option Name
  | .basicClassRedefined name | .classRedefined name | .inheritsFromSealed name _
  | .undefinedParent name _ | .inheritanceCycle name => some name
  | .mainNotDefined => none

/-- A diagnostic has its place in a program. -/
inductive Program.Places (p : Program) : Diagnostic → Prop
  /-- That there is no class `Main` has no place. -/
  | noMain : Places p ⟨.error, none, HierarchyError.mainNotDefined.message⟩
  /-- A violation of the hierarchy is reported where the class is declared. -/
  | hierarchy {c : Class} {error : HierarchyError} (hc : c ∈ p.classes)
      (subject : error.subject? = some c.name) :
      Places p ⟨.error, some ⟨c.file, c.line⟩, error.message⟩
  /-- A type error is reported in the class that was checked. -/
  | typing {c : Class} {f : Finding} (hc : c ∈ p.classes) (located : c.Locates f) :
      Places p f.diagnostic

end SelfTyped
