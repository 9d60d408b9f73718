/-
SelfTyped.Json.Printer — JSON values as texts without blanks.
-/
import SelfTyped.Json.Basic
import SelfTyped.Json.StringLiteral
import SelfTyped.Decimal.Notation

namespace SelfTyped

namespace Json

/-- A number as a literal. -/
def Number.render : Number → List Char
  | .integer value => (toString value).toList
  | .double value => (Decimal.render value).toList

mutual

/-- A value as a text. -/
def render : Json → List Char
  | .null => ['n', 'u', 'l', 'l']
  | .bool true => ['t', 'r', 'u', 'e']
  | .bool false => ['f', 'a', 'l', 's', 'e']
  | .number value => value.render
  | .string value => StringLiteral.encode value
  | .array [] => ['[', ']']
  | .array (item :: rest) => '[' :: (item.render ++ renderItems rest)
  | .object [] => ['{', '}']
  | .object ((key, value) :: rest) =>
    '{' :: (StringLiteral.encode key ++ ':' :: (value.render ++ renderEntries rest))

/-- The items after the first one, with the closing bracket. -/
def renderItems : List Json → List Char
  | [] => [']']
  | item :: rest => ',' :: (item.render ++ renderItems rest)

/-- The entries after the first one, with the closing brace. -/
def renderEntries : List (String × Json) → List Char
  | [] => ['}']
  | (key, value) :: rest =>
    ',' :: (StringLiteral.encode key ++ ':' :: (value.render ++ renderEntries rest))

end

/-- A value as a text. -/
def toText (value : Json) : String :=
  String.ofList value.render

end Json

end SelfTyped
