/-
SelfTyped.Text.Quoted — texts shown in double quotes.

A message that shows a text shows it so that its ends and all its
characters can be seen: quotes and backslashes are escaped, as is every
character without a printed form of its own.
-/
import SelfTyped.Text.Unprintable

namespace SelfTyped

namespace Quoted

/-- The digits of a code point in hexadecimal, without leading zeros. -/
def hexDigits (codePoint : Nat) : List Char :=
  Nat.toDigits 16 codePoint

/-- A character as it is shown inside quotes. -/
def encodeChar (c : Char) : List Char :=
  if c = '"' then ['\\', '"']
  else if c = '\\' then ['\\', '\\']
  else if c = '\n' then ['\\', 'n']
  else if c = '\r' then ['\\', 'r']
  else if c = '\t' then ['\\', 't']
  else if c = '\x00' then ['\\', '0']
  else if isPrintable c then [c]
  else ['\\', 'u', '{'] ++ hexDigits c.toNat ++ ['}']

/-- A text in quotes. -/
def encode (text : String) : String :=
  String.ofList ('"' :: (text.toList.flatMap encodeChar ++ ['"']))

end Quoted

end SelfTyped
