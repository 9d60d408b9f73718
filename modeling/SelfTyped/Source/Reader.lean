/-
SelfTyped.Source.Reader — reading programs.

`Program.parse` reads a program from its text.  Text that nests deeper
than its expressions may is refused before anything else is looked at;
otherwise the first thing wrong in the order of the text is reported.
-/
import SelfTyped.Json.Nesting
import SelfTyped.Source.ExprReader
import SelfTyped.Source.ReadError

namespace SelfTyped

namespace Source

open Json (Draft)

/-- Reads a formal parameter. -/
def readFormal (node : Draft) : Except Fault Formal := do
  let filled ← Record.read
    ⟨"struct RawFormal", [.text "name", .text "type", .lineOrNull "line"]⟩ node
  return {
    name := ← filled.require Value.text? "name"
    type := ← filled.require Value.text? "type"
    line := filled.optional Value.line? "line" }

/-- Reads an attribute. -/
def readAttribute (node : Draft) : Except Fault Attribute := do
  let filled ← Record.read
    ⟨"struct RawAttribute",
      [.text "name", .text "type", .exprOrNull readExpr "init", .lineOrNull "line"]⟩ node
  return {
    name := ← filled.require Value.text? "name"
    type := ← filled.require Value.text? "type"
    init := filled.optional Value.expr? "init"
    line := filled.optional Value.line? "line" }

/-- Reads a method. -/
def readMethod (node : Draft) : Except Fault Method := do
  let filled ← Record.read
    ⟨"struct RawMethod",
      [.text "name", .items .formals readFormal "formals", .text "return_type",
        .expr readExpr "body", .lineOrNull "line"]⟩ node
  return {
    name := ← filled.require Value.text? "name"
    formals := (filled.optional Value.formals? "formals").getD []
    returnType := ← filled.require Value.text? "return_type"
    body := ← filled.require Value.expr? "body"
    line := filled.optional Value.line? "line" }

/-- Reads the value of a feature under the key that says which kind of feature it is. -/
def readFeatureOf (key : String) (node : Draft) : Except Fault Feature :=
  if key == "attribute" then .attr <$> readAttribute node
  else if key == "method" then .method <$> readMethod node
  else .error (.mismatch (.unknownFeature key))

/-- Reads a feature: an object with a single entry.  A key alone names a feature without its
value. -/
def readFeature : Draft → Except Fault Feature
  | .object ((some key, node) :: rest) closed => do
    let feature ← readFeatureOf key node
    if rest.isEmpty && closed then return feature else .error .malformed
  | .string key =>
    if key == "attribute" || key == "method" then
      .error (.mismatch (.wrongType .unitVariant .newtypeVariant))
    else .error (.mismatch (.unknownFeature key))
  | _ => .error .malformed

/-- Reads a class. -/
def readClass (node : Draft) : Except Fault Class := do
  let filled ← Record.read
    ⟨"struct RawClass",
      [.text "name", .textOrNull "parent", .textOrNull "filename", .lineOrNull "line",
        .items .features readFeature "features"]⟩ node
  return {
    name := ← filled.require Value.text? "name"
    parent := filled.optional Value.text? "parent"
    file := filled.optional Value.text? "filename"
    line := filled.optional Value.line? "line"
    features := (filled.optional Value.features? "features").getD [] }

/-- Reads a program. -/
def readProgram (node : Draft) : Except Fault Program := do
  let filled ← Record.read ⟨"struct RawProgram", [.items .classes readClass "classes"]⟩ node
  return ⟨← filled.require Value.classes? "classes"⟩

namespace Program

/-- Reads the program that makes up a whole text, whatever its nesting. -/
def ofText (text : List Char) : Except Fault Program := do
  let (draft, rest) := Draft.read text
  let program ← readProgram draft
  match rest with
  | some rest => if (Json.skipBlanks rest).isEmpty then return program else .error .malformed
  | none => .error .malformed

/-- Reads a program whose expressions nest at most `maxDepth` levels from its text. -/
def parse (text : String) (maxDepth : Nat) : Except ReadError Program :=
  let chars := text.toList
  let limit := Json.nestingLimit maxDepth
  if limit < Json.nestingDepth chars then .error (.tooDeep limit)
  else (ofText chars).mapError .fault

/-- Reads a program from the bytes of its text. -/
def parseBytes (bytes : ByteArray) (maxDepth : Nat) : Except ReadError Program :=
  match String.fromUTF8? bytes with
  | some text => parse text maxDepth
  | none => .error .notUtf8

end Program

end Source

end SelfTyped
