/-
SelfTyped.Source.Record — records of named fields.

A record is written as an object with its fields as entries, in any
order and among others that mean nothing, or as an array of its fields
in their order.  Fields are read in the order of the text; only then are
required fields that are missing reported, in the order of the record.
-/
import SelfTyped.Source.Basic
import SelfTyped.Source.Node

namespace SelfTyped

namespace Source

/-- What a field can hold. -/
inductive Value where
  /-- An optional field that is given as `null`. -/
  | none
  | text (value : String)
  | line (value : Nat)
  | expr (value : Expr)
  | exprs (values : List Expr)
  | branches (values : List Branch)
  | formals (values : List Formal)
  | features (values : List Feature)
  | classes (values : List Class)

/-- A field: its key and how its value is read. -/
structure Field (δ : Type) where
  key : String
  read : δ → Except Fault Value

/-- A record: how it is named in a mismatch, and its fields in order. -/
structure Record (δ : Type) where
  title : String
  fields : List (Field δ)

/-- The fields of a record that were read. -/
structure Filled where
  values : List (String × Value)
  /-- What is wrong if the field of a key is missing. -/
  missing : String → Fault

variable {δ : Type} [Node δ]

namespace Field

/-- A field that holds a string. -/
def text (key : String) : Field δ :=
  ⟨key, fun node => .text <$> readText node⟩

/-- The value of an optional field. -/
def optional {α : Type} (wrap : α → Value) : Option α → Value
  | some value => wrap value
  | none => .none

/-- A field that holds a string or `null`. -/
def textOrNull (key : String) : Field δ :=
  ⟨key, fun node => optional .text <$> readOptional readText node⟩

/-- A field that holds a line number or `null`. -/
def lineOrNull (key : String) : Field δ :=
  ⟨key, fun node => optional .line <$> readOptional readLine node⟩

/-- A field that holds an expression. -/
def expr (read : δ → Except Fault Expr) (key : String) : Field δ :=
  ⟨key, fun node => .expr <$> read node⟩

/-- A field that holds an expression or `null`. -/
def exprOrNull (read : δ → Except Fault Expr) (key : String) : Field δ :=
  ⟨key, fun node => optional .expr <$> readOptional read node⟩

/-- A field that holds an array. -/
def items {α : Type} (wrap : List α → Value) (read : δ → Except Fault α) (key : String) :
    Field δ :=
  ⟨key, fun node => wrap <$> readItems read node⟩

end Field

namespace Record

/-- Reads the entries of an object.  `values` holds the fields read so far. -/
def fillMapping (fields : List (Field δ)) :
    List (Except Fault (String × δ)) → List (String × Value) →
      Except Fault (List (String × Value))
  | [], values => .ok values
  | entry :: rest, values => do
    let (key, node) ← entry
    match fields.find? fun field => field.key == key with
    | none => do
      Node.skip node
      fillMapping fields rest values
    | some field =>
      if values.any fun (known, _) => known == key then
        .error (.mismatch (.duplicateField key))
      else do
        let value ← field.read node
        fillMapping fields rest (values ++ [(key, value)])

/-- Reads the items of an array as the fields of a record.  `surplus` is what is wrong if
items are left over. -/
def fillSequence (surplus : Fault) :
    List (Field δ) → List (Except Fault δ) → Except Fault (List (String × Value))
  | _, [] => .ok []
  | [], _ :: _ => .error surplus
  | field :: fields, item :: items => do
    let node ← item
    let value ← field.read node
    let values ← fillSequence surplus fields items
    return (field.key, value) :: values

/-- What is wrong with an array that ends before the field of a key. -/
def endsBefore (record : Record δ) (key : String) : Fault :=
  let index := record.fields.findIdx fun field => field.key == key
  .mismatch (.tooShort index record.title record.fields.length)

/-- Reads the fields of a record from an array. -/
def fillItems (record : Record δ) (items : List (Except Fault δ)) : Except Fault Filled := do
  let surplus := @Node.surplus δ _ items.length record.fields.length
  let values ← fillSequence surplus record.fields items
  return ⟨values, record.endsBefore⟩

/-- Reads the fields of a record. -/
def fill (record : Record δ) (expected : Expected) (node : δ) : Except Fault Filled := do
  match ← Node.shape node with
  | .mapping entries => do
    let values ← fillMapping record.fields entries []
    return ⟨values, fun key => .mismatch (.missingField key)⟩
  | .sequence items => record.fillItems items
  | shape => shape.unexpected expected

/-- Reads a record that stands for itself. -/
def read (record : Record δ) (node : δ) : Except Fault Filled :=
  record.fill (.record record.title) node

end Record

namespace Filled

/-- The value of a field, if it was given one. -/
def get? (filled : Filled) (key : String) : Option Value :=
  filled.values.lookup key

/-- The value of a required field, as picked out by `pick`. -/
def require {α : Type} (pick : Value → Option α) (filled : Filled) (key : String) :
    Except Fault α :=
  match (filled.get? key).bind pick with
  | some value => .ok value
  | none => .error (filled.missing key)

/-- The value of an optional field, as picked out by `pick`. -/
def optional {α : Type} (pick : Value → Option α) (filled : Filled) (key : String) : Option α :=
  (filled.get? key).bind pick

end Filled

namespace Value

/-- The string that a field holds. -/
def text? : Value → Option String
  | .text value => some value
  | _ => Option.none

/-- The line that a field holds. -/
def line? : Value → Option Nat
  | .line value => some value
  | _ => Option.none

/-- The expression that a field holds. -/
def expr? : Value → Option Expr
  | .expr value => some value
  | _ => Option.none

/-- The expressions that a field holds. -/
def exprs? : Value → Option (List Expr)
  | .exprs values => some values
  | _ => Option.none

/-- The branches that a field holds. -/
def branches? : Value → Option (List Branch)
  | .branches values => some values
  | _ => Option.none

/-- The formal parameters that a field holds. -/
def formals? : Value → Option (List Formal)
  | .formals values => some values
  | _ => Option.none

/-- The features that a field holds. -/
def features? : Value → Option (List Feature)
  | .features values => some values
  | _ => Option.none

/-- The classes that a field holds. -/
def classes? : Value → Option (List Class)
  | .classes values => some values
  | _ => Option.none

end Value

end Source

end SelfTyped
