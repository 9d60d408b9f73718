/-
SelfTyped.Source.Place — what the values in the text of a program stand for.

Every value in the text of a program stands at a place: it is the program, a
class, an expression and so on, or one of the values that have no expressions
in them.  The place of a value says where its parts stand, by their keys in an
object and by their order in an array.

At an expression one key has to name the kind, and the first one that does
decides.  A text is `unambiguous` if no expression in it leaves a choice.
-/
import SelfTyped.Json.Reordering
import SelfTyped.Source.ExprReader

namespace SelfTyped

namespace Source

open Json (Draft)

/-- What a value in the text of a program stands for. -/
inductive Place where
  | program
  | classDecl
  | feature
  | attr
  | method
  | formal
  | expr
  | branch
  /-- The fields of an expression of a kind. -/
  | form (kind : Kind)
  /-- A list of values. -/
  | list (each : Place)
  /-- A name, a number, a literal, or a value that nobody reads. -/
  | other
  deriving DecidableEq, Repr

namespace Place

/-- The value of the key that names the kind of an expression. -/
def ofKind : Kind → Place
  | .negate => .expr
  | .complement => .expr
  | .isVoid => .expr
  | .block => .list .expr
  | kind => .form kind

/-- The fields of the record of a kind. -/
def formFields : Kind → List (String × Place)
  | .assign => [("name", .other), ("value", .expr)]
  | .dispatch => [("receiver", .expr), ("method", .other), ("args", .list .expr)]
  | .staticDispatch =>
    [("receiver", .expr), ("type", .other), ("method", .other), ("args", .list .expr)]
  | .cond => [("pred", .expr), ("then", .expr), ("else", .expr)]
  | .loop => [("pred", .expr), ("body", .expr)]
  | .case => [("expr", .expr), ("branches", .list .branch)]
  | .letIn => [("name", .other), ("type", .other), ("init", .expr), ("body", .expr)]
  | .binary _ => [("left", .expr), ("right", .expr)]
  | _ => []

/-- The parts of a value that stand at places of their own, in their order. -/
def fields : Place → List (String × Place)
  | .program => [("classes", .list .classDecl)]
  | .classDecl =>
    [("name", .other), ("parent", .other), ("filename", .other), ("line", .other),
      ("features", .list .feature)]
  | .feature => [("attribute", .attr), ("method", .method)]
  | .attr => [("name", .other), ("type", .other), ("init", .expr), ("line", .other)]
  | .method =>
    [("name", .other), ("formals", .list .formal), ("return_type", .other), ("body", .expr),
      ("line", .other)]
  | .formal => [("name", .other), ("type", .other), ("line", .other)]
  | .expr => Kind.all.map fun kind => (kind.key, ofKind kind)
  | .branch => [("name", .other), ("type", .other), ("body", .expr), ("line", .other)]
  | .form kind => formFields kind
  | .list _ => []
  | .other => []

/-- Where the value of an entry stands. -/
def entry (place : Place) (key : String) : Place :=
  (place.fields.lookup key).getD .other

/-- Where an item of an array stands. -/
def item : Place → Nat → Place
  | .list each, _ => each
  | place, index => ((place.fields[index]?).map Prod.snd).getD .other

end Place

/-- The kinds that the keys of some entries name. -/
def kindsNamed (entries : List (Option String × Draft)) : List Kind :=
  (Draft.keys entries).filterMap Kind.ofKey?

mutual

/-- No expression in a value names its kind by more than one key. -/
def unambiguous : Place → Draft → Bool
  | place, .array items _ => itemsUnambiguous place 0 items
  | place, .object entries _ =>
    (place != .expr || decide ((kindsNamed entries).length ≤ 1)) &&
      entriesUnambiguous place entries
  | _, _ => true

/-- No expression in the items of an array, from an index on, names its kind twice. -/
def itemsUnambiguous : Place → Nat → List Draft → Bool
  | _, _, [] => true
  | place, index, item :: rest =>
    unambiguous (place.item index) item && itemsUnambiguous place (index + 1) rest

/-- No expression in the entries of an object names its kind twice. -/
def entriesUnambiguous : Place → List (Option String × Draft) → Bool
  | _, [] => true
  | place, (some key, value) :: rest =>
    unambiguous (place.entry key) value && entriesUnambiguous place rest
  | place, (none, _) :: rest => entriesUnambiguous place rest

end

end Source

end SelfTyped
