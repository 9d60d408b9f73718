/-
SelfTyped.Json.Draft — a JSON text as far as it can be read.

A reader that reports the first thing wrong with a text has to look at
the values before a fault of the text, and at them only.  A draft is
the value of a text up to its first fault: what stands before the fault
is there, the fault itself is marked, and nothing follows it.  A draft
without any fault is a JSON value (`toJson?`).

Literals that are well-formed but have no value (an unpaired surrogate,
a number beyond the doubles) do not end a draft; they matter only to a
reader that wants their value.
-/
import SelfTyped.Json.Basic
import SelfTyped.Json.StringLiteral
import SelfTyped.Json.Numeral

namespace SelfTyped

namespace Json

/-- A JSON value up to the first fault of its text. -/
inductive Draft where
  /-- No value can be read from here on. -/
  | fault
  /-- A well-formed string literal with a surrogate that has no partner. -/
  | unpaired
  /-- A well-formed number literal whose value is too large for a double. -/
  | tooLarge
  | null
  | bool (value : Bool)
  | number (value : Number)
  | string (value : String)
  /-- The items before the end of the text or its fault, and whether the array is closed. -/
  | array (items : List Draft) (closed : Bool)
  /-- The entries before the end of the text or its fault, and whether the object is closed.
  There is no key where the literal of a key has a surrogate that has no partner. -/
  | object (entries : List (Option String × Draft)) (closed : Bool)
  deriving Repr

namespace Draft

/-- What was read, and the text after it.  There is no text after a fault. -/
abbrev Read (α : Type) := α × Option (List Char)

/-- Reads a number literal. -/
def readNumber (text : List Char) : Read Draft :=
  match Numeral.read? text with
  | some (numeral, rest) =>
    match numeral.value? with
    | some value => (.number value, some rest)
    | none => (.tooLarge, some rest)
  | none => (.fault, none)

/-- Reads a string literal after its opening quote. -/
def readString (text : List Char) : Read Draft :=
  match StringLiteral.read? text with
  | some (some value, rest) => (.string value, some rest)
  | some (none, rest) => (.unpaired, some rest)
  | none => (.fault, none)

/-- Reads a value that is neither an array nor an object. -/
def readScalar : List Char → Read Draft
  | 'n' :: 'u' :: 'l' :: 'l' :: rest => (.null, some rest)
  | 't' :: 'r' :: 'u' :: 'e' :: rest => (.bool true, some rest)
  | 'f' :: 'a' :: 'l' :: 's' :: 'e' :: rest => (.bool false, some rest)
  | '"' :: rest => readString rest
  | text => readNumber text

mutual

/-- Reads a value.  The fuel bounds the number of steps. -/
def readValue : Nat → List Char → Read Draft
  | 0, _ => (.fault, none)
  | fuel + 1, text =>
    match skipBlanks text with
    | '[' :: rest =>
      match skipBlanks rest with
      | ']' :: rest => (.array [] true, some rest)
      | rest =>
        let (items, after) := readItems fuel rest
        (.array items after.isSome, after)
    | '{' :: rest =>
      match skipBlanks rest with
      | '}' :: rest => (.object [] true, some rest)
      | rest =>
        let (entries, after) := readEntries fuel rest
        (.object entries after.isSome, after)
    | text => readScalar text

/-- Reads the items of an array that has some, up to its closing bracket. -/
def readItems : Nat → List Char → Read (List Draft)
  | 0, _ => ([], none)
  | fuel + 1, text =>
    match readValue fuel text with
    | (item, none) => ([item], none)
    | (item, some rest) =>
      match skipBlanks rest with
      | ',' :: rest =>
        let (items, after) := readItems fuel rest
        (item :: items, after)
      | ']' :: rest => ([item], some rest)
      | _ => ([item], none)

/-- Reads the entries of an object that has some, up to its closing brace. -/
def readEntries : Nat → List Char → Read (List (Option String × Draft))
  | 0, _ => ([], none)
  | fuel + 1, text =>
    match skipBlanks text with
    | '"' :: rest =>
      match StringLiteral.read? rest with
      | none => ([], none)
      | some (key, rest) =>
        match skipBlanks rest with
        | ':' :: rest =>
          match readValue fuel rest with
          | (value, none) => ([(key, value)], none)
          | (value, some rest) =>
            match skipBlanks rest with
            | ',' :: rest =>
              let (entries, after) := readEntries fuel rest
              ((key, value) :: entries, after)
            | '}' :: rest => ([(key, value)], some rest)
            | _ => ([(key, value)], none)
        | _ => ([(key, .fault)], none)
    | _ => ([], none)

end

/-- Steps enough for a text: each character is passed by at most two. -/
def fuelFor (text : List Char) : Nat :=
  2 * text.length + 2

/-- Reads the value at the start of a text. -/
def read (text : List Char) : Read Draft :=
  readValue (fuelFor text) text

mutual

/-- Whether the text of a draft is well-formed, literals without a value included. -/
def isComplete : Draft → Bool
  | .fault => false
  | .array items closed => allComplete items && closed
  | .object entries closed => entriesComplete entries && closed
  | _ => true

/-- Whether the texts of all items are well-formed. -/
def allComplete : List Draft → Bool
  | [] => true
  | item :: rest => item.isComplete && allComplete rest

/-- Whether the texts of all entries are well-formed. -/
def entriesComplete : List (Option String × Draft) → Bool
  | [] => true
  | (_, value) :: rest => value.isComplete && entriesComplete rest

end

mutual

/-- The value of a draft without faults and without literals that have no value. -/
def toJson? : Draft → Option Json
  | .fault => none
  | .unpaired => none
  | .tooLarge => none
  | .null => some .null
  | .bool value => some (.bool value)
  | .number value => some (.number value)
  | .string value => some (.string value)
  | .array items closed => do
    let items ← itemsToJson? items
    if closed then some (.array items) else none
  | .object entries closed => do
    let entries ← entriesToJson? entries
    if closed then some (.object entries) else none

/-- The values of items. -/
def itemsToJson? : List Draft → Option (List Json)
  | [] => some []
  | item :: rest => do
    let item ← item.toJson?
    let rest ← itemsToJson? rest
    return item :: rest

/-- The keys and values of entries. -/
def entriesToJson? : List (Option String × Draft) → Option (List (String × Json))
  | [] => some []
  | (some key, value) :: rest => do
    let value ← value.toJson?
    let rest ← entriesToJson? rest
    return (key, value) :: rest
  | (none, _) :: _ => none

end

end Draft

/-- A text is well-formed JSON, with the given draft.  Literals that have no value are allowed. -/
def WellFormed (text : List Char) (draft : Draft) : Prop :=
  ∃ rest, Draft.read text = (draft, some rest) ∧ skipBlanks rest = []

/-- The value of a well-formed JSON text. -/
def parse? (text : List Char) : Option Json :=
  match Draft.read text with
  | (draft, some rest) => if (skipBlanks rest).isEmpty then draft.toJson? else none
  | (_, none) => none

end Json

end SelfTyped
