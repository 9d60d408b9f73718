/-
SelfTyped.Json.Grammar — which texts are JSON.

The reader of drafts goes through a text character by character and decides as
it goes.  The grammar says which texts there are, part by part, and knows
neither a rest of the text nor a number of steps.  A value may have blanks
around it, and so may the key of an entry.

A text is derived together with its draft, which has no faults then.  That the
reader accepts what the grammar derives, and nothing else, is shown in
`SelfTyped.Proofs.JsonGrammar`.
-/
import SelfTyped.Json.Draft

namespace SelfTyped

namespace Json

namespace Grammar

/-- A text of blanks only. -/
def Blank (text : List Char) : Prop :=
  ∀ c ∈ text, isBlank c = true

/-! ## Numbers -/

/-- One or more decimal digits. -/
def Digits (text : List Char) : Prop :=
  text ≠ [] ∧ ∀ c ∈ text, c.isDigit = true

/-- The values of digits. -/
def values (text : List Char) : List Nat :=
  text.map fun c => c.toNat - '0'.toNat

/-- The sign of a number, and whether it is negative. -/
inductive Sign : List Char → Bool → Prop
  | none : Sign [] false
  | minus : Sign ['-'] true

/-- The digits before the point.  A zero stands alone. -/
inductive Whole : List Char → List Nat → Prop
  | digits {text : List Char} (digits : Digits text)
    (alone : text.head? = some '0' → text = ['0']) : Whole text (values text)

/-- The point and the digits after it. -/
inductive Fraction : List Char → List Nat → Prop
  | none : Fraction [] []
  | point {text : List Char} (digits : Digits text) : Fraction ('.' :: text) (values text)

/-- The sign of an exponent, and whether it is negative. -/
inductive ExponentSign : List Char → Bool → Prop
  | none : ExponentSign [] false
  | plus : ExponentSign ['+'] false
  | minus : ExponentSign ['-'] true

/-- The exponent of a number. -/
inductive Exponent : List Char → Option (Bool × List Nat) → Prop
  | none : Exponent [] none
  | letter {letter : Char} {front text : List Char} {negative : Bool}
    (isLetter : letter = 'e' ∨ letter = 'E') (sign : ExponentSign front negative)
    (digits : Digits text) : Exponent (letter :: (front ++ text)) (some (negative, values text))

/-- The literal of a number. -/
inductive Number : List Char → Numeral → Prop
  | parts {front middle back last : List Char} {n : Numeral} (sign : Sign front n.negative)
    (whole : Whole middle n.whole) (fraction : Fraction back n.fraction)
    (exponent : Exponent last n.exponent) : Number (front ++ (middle ++ (back ++ last))) n

/-! ## Strings -/

/-- A character of the literal of a string, as it is or escaped. -/
inductive Piece : List Char → StringLiteral.Unit → Prop
  | plain {c : Char} (notQuote : c ≠ '"') (notEscape : c ≠ '\\') (high : ¬ c.toNat < 0x20) :
    Piece [c] (.char c)
  | short {letter c : Char} (escaped : StringLiteral.shortEscape? letter = some c) :
    Piece ['\\', letter] (.char c)
  | code {a b c d : Char} {unit : Nat} (digits : StringLiteral.codeUnit? a b c d = some unit) :
    Piece ['\\', 'u', a, b, c, d] (.code unit)

/-- The characters of the literal of a string, one after the other. -/
inductive Pieces : List Char → List StringLiteral.Unit → Prop
  | nil : Pieces [] []
  | cons {front text : List Char} {unit : StringLiteral.Unit} {units : List StringLiteral.Unit}
    (piece : Piece front unit) (others : Pieces text units) : Pieces (front ++ text) (unit :: units)

/-- The literal of a string.  It has no value if there is a surrogate without its partner. -/
inductive Literal : List Char → Option String → Prop
  | quoted {text : List Char} {units : List StringLiteral.Unit} (pieces : Pieces text units) :
    Literal ('"' :: (text ++ ['"'])) ((StringLiteral.chars? units).map String.ofList)

/-! ## Values -/

/-- The draft of a string literal. -/
def ofString : Option String → Draft
  | some value => .string value
  | none => .unpaired

/-- The draft of a number literal. -/
def ofNumber : Option Json.Number → Draft
  | some value => .number value
  | none => .tooLarge

/-- A value that is neither an array nor an object. -/
inductive Scalar : List Char → Draft → Prop
  | nullWord : Scalar ['n', 'u', 'l', 'l'] .null
  | trueWord : Scalar ['t', 'r', 'u', 'e'] (.bool true)
  | falseWord : Scalar ['f', 'a', 'l', 's', 'e'] (.bool false)
  | string {text : List Char} {value : Option String} (literal : Literal text value) :
    Scalar text (ofString value)
  | number {text : List Char} {n : Numeral} (literal : Number text n) :
    Scalar text (ofNumber n.value?)

/-- The key of an entry, with the blanks around it. -/
inductive Key : List Char → Option String → Prop
  | padded {before text after : List Char} {key : Option String} (blanks : Blank before)
    (literal : Literal text key) (blanks' : Blank after) : Key (before ++ (text ++ after)) key

/-- An entry of an object, with its texts. -/
structure Entry where
  keyText : List Char
  key : Option String
  valueText : List Char
  value : Draft

/-- The text of an entry. -/
def Entry.text (entry : Entry) : List Char :=
  entry.keyText ++ ':' :: entry.valueText

/-- An entry without its texts. -/
def Entry.draft (entry : Entry) : Option String × Draft :=
  (entry.key, entry.value)

/-- Texts with commas between them. -/
def separated (texts : List (List Char)) : List Char :=
  [','].intercalate texts

/-- A value, with the blanks around it. -/
inductive Value : List Char → Draft → Prop
  | scalar {text : List Char} {draft : Draft} (scalar : Scalar text draft) : Value text draft
  | padded {before text after : List Char} {draft : Draft} (blanks : Blank before)
    (value : Value text draft) (blanks' : Blank after) : Value (before ++ (text ++ after)) draft
  | emptyArray {blanks : List Char} (blank : Blank blanks) :
    Value ('[' :: (blanks ++ [']'])) (.array [] true)
  | array {items : List (List Char × Draft)} (nonempty : items ≠ [])
    (each : ∀ item ∈ items, Value item.1 item.2) :
    Value ('[' :: (separated (items.map Prod.fst) ++ [']'])) (.array (items.map Prod.snd) true)
  | emptyObject {blanks : List Char} (blank : Blank blanks) :
    Value ('{' :: (blanks ++ ['}'])) (.object [] true)
  | object {entries : List Entry} (nonempty : entries ≠ [])
    (keys : ∀ entry ∈ entries, Key entry.keyText entry.key)
    (each : ∀ entry ∈ entries, Value entry.valueText entry.value) :
    Value ('{' :: (separated (entries.map Entry.text) ++ ['}']))
      (.object (entries.map Entry.draft) true)

end Grammar

end Json

end SelfTyped
