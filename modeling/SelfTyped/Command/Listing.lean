/-
SelfTyped.Command.Listing — the types of a program as a text.

First come the classes, each with a line for every feature, then all
expressions, one line each: class by class, feature by feature, and
within a feature in pre-order.
-/
import SelfTyped.Typing.Analysis

namespace SelfTyped

namespace Listing

/-- What is shown in place of a type that is not there. -/
def noTypeMark : String := "-"

/-- The line of a feature. -/
def featureLine (f : TypedFeature) : String :=
  let type := f.rootType?.getD noTypeMark
  match f.feature with
  | .attr a =>
    "  " ++ toString a.line ++ ": attribute " ++ a.name ++ " : " ++ a.type ++
      " (initializer : " ++ type ++ ")"
  | .method m =>
    "  " ++ toString m.line ++ ": method " ++ m.name ++ " : " ++ m.returnType ++
      " (body : " ++ type ++ ")"

/-- The lines of a class and its features. -/
def classLines (c : TypedClass) : List String :=
  ("class " ++ c.decl.name ++ " inherits " ++ c.decl.parent) :: c.features.map featureLine

/-- The line of an expression in the file `file`. -/
def exprLine (file : String) (e : Expr) (type : Name) : String :=
  "  " ++ file ++ ":" ++ toString e.line ++ " " ++ e.form.kindName ++ " : " ++ type

/-- The lines of the expressions of a class that have a type. -/
def exprLines (c : TypedClass) : List String :=
  (c.features.flatMap TypedFeature.nodes).filterMap fun (e, type) =>
    type.map (exprLine c.decl.file e)

/-- The lines of the listing of a program. -/
def lines (classes : List TypedClass) : List String :=
  classes.flatMap classLines ++ ["expressions"] ++ classes.flatMap exprLines

/-- The listing of a program. -/
def render (analysis : Analysis) : String :=
  String.join ((lines analysis.classes).map (· ++ "\n"))

end Listing

end SelfTyped
