/-
SelfTyped.Json.StringLiteral — JSON string literals.

A literal is read in three steps: the closing quote is found, escapes
are resolved to characters and 16-bit code units, and code units are
joined to characters.  The last step alone can fail on a literal that is
well-formed: a surrogate without its partner stands for no character.
`encode` writes a text so that reading gives it back.
-/

namespace SelfTyped

namespace Json

namespace StringLiteral

/-- Splits a text that follows an opening quote at the closing quote.  A backslash hides the
character after it. -/
def body? : List Char → Option (List Char × List Char)
  | [] => none
  | '"' :: rest => some ([], rest)
  | '\\' :: c :: rest => (body? rest).map fun (body, after) => ('\\' :: c :: body, after)
  | c :: rest => (body? rest).map fun (body, after) => (c :: body, after)

/-- What a literal holds before surrogates are joined. -/
inductive Unit where
  | char (c : Char)
  | code (unit : Nat)
  deriving DecidableEq, Repr

/-- The value of a hexadecimal digit. -/
def hexDigit? (c : Char) : Option Nat :=
  if '0' ≤ c ∧ c ≤ '9' then some (c.toNat - '0'.toNat)
  else if 'a' ≤ c ∧ c ≤ 'f' then some (c.toNat - 'a'.toNat + 10)
  else if 'A' ≤ c ∧ c ≤ 'F' then some (c.toNat - 'A'.toNat + 10)
  else none

/-- The code unit written by four hexadecimal digits. -/
def codeUnit? (a b c d : Char) : Option Nat := do
  return ((← hexDigit? a) * 16 + (← hexDigit? b)) * 256 + (← hexDigit? c) * 16 + (← hexDigit? d)

/-- The character written by a backslash and one letter. -/
def shortEscape? : Char → Option Char
  | '"' => some '"'
  | '\\' => some '\\'
  | '/' => some '/'
  | 'b' => some '\x08'
  | 'f' => some '\x0c'
  | 'n' => some '\n'
  | 'r' => some '\r'
  | 't' => some '\t'
  | _ => none

/-- Resolves the escapes of a literal's body.  Control characters have to be escaped. -/
def units? : List Char → Option (List Unit)
  | [] => some []
  | '\\' :: 'u' :: a :: b :: c :: d :: rest => do
    let unit ← codeUnit? a b c d
    return .code unit :: (← units? rest)
  | '\\' :: c :: rest => do
    let c ← shortEscape? c
    return .char c :: (← units? rest)
  | c :: rest =>
    if c = '\\' ∨ c.toNat < 0x20 then none else (units? rest).map (.char c :: ·)

/-- The first half of a pair of surrogates. -/
def isHighSurrogate (unit : Nat) : Bool :=
  decide (0xD800 ≤ unit) && decide (unit < 0xDC00)

/-- The second half of a pair of surrogates. -/
def isLowSurrogate (unit : Nat) : Bool :=
  decide (0xDC00 ≤ unit) && decide (unit < 0xE000)

/-- The character that a pair of surrogates stands for. -/
def joinSurrogates (high low : Nat) : Char :=
  Char.ofNat (0x10000 + (high - 0xD800) * 0x400 + (low - 0xDC00))

/-- Joins code units to characters.  Fails on a surrogate without its partner. -/
def chars? : List Unit → Option (List Char)
  | [] => some []
  | .char c :: rest => (chars? rest).map (c :: ·)
  | .code unit :: rest =>
    if isHighSurrogate unit then
      match rest with
      | .code low :: rest =>
        if isLowSurrogate low then (chars? rest).map (joinSurrogates unit low :: ·) else none
      | _ => none
    else if isLowSurrogate unit then none
    else (chars? rest).map (Char.ofNat unit :: ·)

/-- Reads a literal after its opening quote.  Gives nothing if the text is not well-formed, else
the value of the literal, if it has one, and the text after the closing quote. -/
def read? (text : List Char) : Option (Option String × List Char) := do
  let (body, after) ← body? text
  let units ← units? body
  return ((chars? units).map String.ofList, after)

/-- A hexadecimal digit in lower case. -/
def hexChar (digit : Nat) : Char :=
  if digit < 10 then Char.ofNat ('0'.toNat + digit) else Char.ofNat ('a'.toNat + (digit - 10))

/-- A character as it is written inside a literal. -/
def encodeChar (c : Char) : List Char :=
  if c = '"' then ['\\', '"']
  else if c = '\\' then ['\\', '\\']
  else if c = '\x08' then ['\\', 'b']
  else if c = '\x0c' then ['\\', 'f']
  else if c = '\n' then ['\\', 'n']
  else if c = '\r' then ['\\', 'r']
  else if c = '\t' then ['\\', 't']
  else if c.toNat < 0x20 then
    ['\\', 'u', '0', '0', hexChar (c.toNat / 16), hexChar (c.toNat % 16)]
  else [c]

/-- A text as a literal, with its quotes. -/
def encode (text : String) : List Char :=
  '"' :: (text.toList.flatMap encodeChar ++ ['"'])

end StringLiteral

end Json

end SelfTyped
