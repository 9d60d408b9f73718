/-
SelfTyped.Typing.Error — what the type checker can find wrong.

Each kind of error has one wording (`TypeError.message`).  A finding is
an error at a place of the program.
-/
import SelfTyped.Text.Suggestion
import SelfTyped.Report.Diagnostic
import SelfTyped.Program.Operator

namespace SelfTyped

/-- A violation of the typing rules. -/
inductive TypeError where
  | undeclaredIdentifier (name : Name) (hint : Option Name)
  | assignToSelf
  | assignToUndeclared (name : Name) (hint : Option Name)
  | assignMismatch (name actual declared : Name)
  | undefinedMethod (method : Name)
  | wrongArity (method : Name) (expected actual : Nat)
  | argumentMismatch (method param actual declared : Name)
  | staticDispatchToSelfType
  | staticDispatchToUndefinedClass (type : Name)
  | staticDispatchMismatch (actual declared : Name)
  | ifPredicateNotBool
  | loopConditionNotBool
  | duplicateCaseBranch (type : Name)
  | selfTypeCaseBranch (name : Name)
  | undefinedCaseBranchType (type : Name)
  | selfInCase
  | selfInLet
  | undefinedLetType (name type : Name)
  | letInitMismatch (name actual declared : Name)
  | nonIntArguments (left : Name) (op : Operator) (right : Name)
  | illegalComparison
  | negateNotInt (type : Name)
  | complementNotBool (type : Name)
  | newUndefinedClass (type : Name)
  | attributeRedefined (name : Name)
  | selfAttribute
  | undefinedAttributeType (name type : Name)
  | attributeInitMismatch (name actual declared : Name)
  | methodRedefined (name : Name)
  | duplicateFormal (name : Name)
  | selfFormal
  | selfTypeFormal (name : Name)
  | undefinedFormalType (name type : Name)
  | undefinedReturnType (method type : Name)
  | returnTypeMismatch (method actual declared : Name)
  | nestingTooDeep (limit : Nat)
  deriving DecidableEq, Repr

namespace TypeError

/-- The wording of an error. -/
def message : TypeError → String
  | .undeclaredIdentifier name hint => "Undeclared identifier " ++ name ++ "." ++ hintText hint
  | .assignToSelf => "Cannot assign to 'self'."
  | .assignToUndeclared name hint =>
    "Assignment to undeclared variable " ++ name ++ "." ++ hintText hint
  | .assignMismatch name actual declared =>
    "Type " ++ actual ++ " of assigned expression does not conform to declared type " ++
      declared ++ " of identifier " ++ name ++ "."
  | .undefinedMethod method => "Dispatch to undefined method " ++ method ++ "."
  | .wrongArity method expected actual =>
    "Method " ++ method ++ " called with wrong number of arguments (expected " ++
      toString expected ++ ", got " ++ toString actual ++ ")."
  | .argumentMismatch method param actual declared =>
    "In call of method " ++ method ++ ", type " ++ actual ++ " of parameter " ++ param ++
      " does not conform to declared type " ++ declared ++ "."
  | .staticDispatchToSelfType => "Static dispatch to SELF_TYPE."
  | .staticDispatchToUndefinedClass type =>
    "Static dispatch to undefined class " ++ type ++ "."
  | .staticDispatchMismatch actual declared =>
    "Expression type " ++ actual ++ " does not conform to declared static dispatch type " ++
      declared ++ "."
  | .ifPredicateNotBool => "Predicate of 'if' does not have type Bool."
  | .loopConditionNotBool => "Loop condition does not have type Bool."
  | .duplicateCaseBranch type => "Duplicate branch " ++ type ++ " in case statement."
  | .selfTypeCaseBranch name =>
    "Identifier " ++ name ++ " declared with type SELF_TYPE in case branch."
  | .undefinedCaseBranchType type => "Class " ++ type ++ " of case branch is undefined."
  | .selfInCase => "'self' bound in 'case'."
  | .selfInLet => "'self' cannot be bound in a 'let' expression."
  | .undefinedLetType name type =>
    "Class " ++ type ++ " of let-bound identifier " ++ name ++ " is undefined."
  | .letInitMismatch name actual declared =>
    "Inferred type " ++ actual ++ " of initialization of " ++ name ++
      " does not conform to identifier's declared type " ++ declared ++ "."
  | .nonIntArguments left op right =>
    "non-Int arguments: " ++ left ++ " " ++ op.sign ++ " " ++ right
  | .illegalComparison => "Illegal comparison with a basic type."
  | .negateNotInt type => "Argument of '~' has type " ++ type ++ " instead of Int."
  | .complementNotBool type => "Argument of 'not' has type " ++ type ++ " instead of Bool."
  | .newUndefinedClass type => "'new' used with undefined class " ++ type ++ "."
  | .attributeRedefined name =>
    "attribute " ++ name ++ " is already defined in the same class or a superclass."
  | .selfAttribute => "'self' cannot be the name of an attribute."
  | .undefinedAttributeType name type =>
    "Class " ++ type ++ " of attribute " ++ name ++ " is undefined."
  | .attributeInitMismatch name actual declared =>
    "Inferred type " ++ actual ++ " of initialization of attribute " ++ name ++
      " does not conform to declared type " ++ declared ++ "."
  | .methodRedefined name => "Method " ++ name ++ " is multiply defined."
  | .duplicateFormal name => "Formal parameter " ++ name ++ " is multiply defined."
  | .selfFormal => "'self' cannot be the name of a formal parameter."
  | .selfTypeFormal name => "Formal parameter " ++ name ++ " cannot have type SELF_TYPE."
  | .undefinedFormalType name type =>
    "Class " ++ type ++ " of formal parameter " ++ name ++ " is undefined."
  | .undefinedReturnType method type =>
    "Undefined return type " ++ type ++ " in method " ++ method ++ "."
  | .returnTypeMismatch method actual declared =>
    "Inferred return type " ++ actual ++ " of method " ++ method ++
      " does not conform to declared return type " ++ declared ++ "."
  | .nestingTooDeep limit =>
    "expression nesting exceeds the limit of " ++ toString limit ++ " levels."

/-- The name that an error calls undeclared, and the name that it suggests instead. -/
def hint? : TypeError → Option (Name × Option Name)
  | .undeclaredIdentifier name hint => some (name, hint)
  | .assignToUndeclared name hint => some (name, hint)
  | _ => none

/-- A message about an undeclared name ends with the name, and with the words of the suggestion. -/
theorem message_of_hint {error : TypeError} {name : Name} {hint : Option Name}
    (hinted : error.hint? = some (name, hint)) :
    ∃ front, error.message = front ++ name ++ "." ++ hintText hint := by
  cases error with
  | undeclaredIdentifier | assignToUndeclared =>
    cases hinted
    exact ⟨_, rfl⟩
  | _ => cases hinted

end TypeError

/-- An error and the place where it was found. -/
structure Finding where
  location : Location
  error : TypeError
  deriving DecidableEq, Repr

namespace Finding

/-- A finding as a diagnostic. -/
def diagnostic (f : Finding) : Diagnostic :=
  ⟨.error, some f.location, f.error.message⟩

end Finding

end SelfTyped
