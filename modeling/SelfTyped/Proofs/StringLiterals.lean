/-
SelfTyped.Proofs.StringLiterals — reading undoes writing, for string
literals.

A character is written in one of three ways (`Written`).  A literal is read
in three steps, and each step passes the written form of a character by
itself: the body goes on (`body?_written`), one unit comes of it
(`units?_written`), and the unit stands for the character (`chars?_unitOf`).
Put together along the text they give `read?_encoded`.
-/
import SelfTyped.Json.StringLiteral

namespace SelfTyped

namespace Json

namespace StringLiteral

variable (c : Char) (text : List Char)

/-- The unit that the written form of a character is read as. -/
def unitOf (c : Char) : Unit :=
  if c.toNat < 0x20 ∧ c ∉ ['\x08', '\x0c', '\n', '\r', '\t'] then .code c.toNat else .char c

/-- The ways in which a character is written. -/
inductive Written : Char → List Char → Prop
  | short {c escape : Char} (escaped : shortEscape? escape = some c) (notCode : escape ≠ 'u')
      (unit : unitOf c = .char c) : Written c ['\\', escape]
  | code {c : Char} (low : c.toNat < 0x20) (unit : unitOf c = .code c.toNat) :
      Written c ['\\', 'u', '0', '0', hexChar (c.toNat / 16), hexChar (c.toNat % 16)]
  | plain {c : Char} (notQuote : c ≠ '"') (notEscape : c ≠ '\\') (high : ¬ c.toNat < 0x20)
      (unit : unitOf c = .char c) : Written c [c]

theorem encodeChar_written : Written c (encodeChar c) := by
  unfold encodeChar
  split
  · next is => subst is; exact .short rfl (by decide) (by decide)
  split
  · next is => subst is; exact .short rfl (by decide) (by decide)
  split
  · next is => subst is; exact .short rfl (by decide) (by decide)
  split
  · next is => subst is; exact .short rfl (by decide) (by decide)
  split
  · next is => subst is; exact .short rfl (by decide) (by decide)
  split
  · next is => subst is; exact .short rfl (by decide) (by decide)
  split
  · next is => subst is; exact .short rfl (by decide) (by decide)
  split
  · next low => exact .code low (by simp_all [unitOf])
  · next high => exact .plain ‹_› ‹_› high (by simp [unitOf, high])

theorem hexDigit?_hexChar : ∀ digit < 16, hexDigit? (hexChar digit) = some digit := by decide

theorem hexChar_plain : ∀ digit < 16, hexChar digit ≠ '"' ∧ hexChar digit ≠ '\\' := by decide

theorem codeUnit?_hexChar {low : Nat} (small : low < 0x20) :
    codeUnit? '0' '0' (hexChar (low / 16)) (hexChar (low % 16)) = some low := by
  have zero : hexDigit? '0' = some 0 := rfl
  rw [codeUnit?, zero, hexDigit?_hexChar _ (by omega), hexDigit?_hexChar _ (by omega)]
  simp only [Option.bind_eq_bind, Option.bind_some, Option.pure_def, Option.some.injEq]
  omega

/-! ## Steps -/

variable {c}

theorem body?_plain (notQuote : c ≠ '"') (notEscape : c ≠ '\\') :
    body? (c :: text) = (body? text).map fun (body, after) => (c :: body, after) := by
  rw [body?.eq_def]
  split <;> simp_all

/-- The closing quote is sought behind the written form of a character. -/
theorem body?_written {written : List Char} (form : Written c written) :
    body? (written ++ text) =
      (body? text).map fun (body, after) => (written ++ body, after) := by
  cases form with
  | short => rfl
  | code low =>
    obtain ⟨first, first'⟩ := hexChar_plain (c.toNat / 16) (by omega)
    obtain ⟨second, second'⟩ := hexChar_plain (c.toNat % 16) (by omega)
    have after : ∀ text, body? ('\\' :: 'u' :: text) =
      (body? text).map fun (body, after) => ('\\' :: 'u' :: body, after) := fun _ => rfl
    simp only [List.cons_append, List.nil_append]
    rw [after, body?_plain _ (by decide) (by decide), body?_plain _ (by decide) (by decide),
      body?_plain _ first first', body?_plain _ second second']
    simp only [Option.map_map]
    rfl
  | plain notQuote notEscape => exact body?_plain text notQuote notEscape

/-- Escapes are resolved behind the written form of a character. -/
theorem units?_written {written : List Char} (form : Written c written) :
    units? (written ++ text) = (units? text).map (unitOf c :: ·) := by
  cases form with
  | short escaped notCode unit =>
    simp only [List.cons_append, List.nil_append]
    rw [units?, escaped, unit]
    · cases units? text <;> rfl
    · exact fun _ _ _ _ _ isCode _ => notCode isCode
  | code low unit =>
    simp only [List.cons_append, List.nil_append]
    rw [units?, codeUnit?_hexChar low, unit]
    cases units? text <;> rfl
  | plain notQuote notEscape high unit =>
    simp only [List.cons_append, List.nil_append]
    rw [units?, if_neg (not_or.mpr ⟨notEscape, high⟩), unit]
    · exact fun _ _ _ _ _ isEscape _ => notEscape isEscape
    · exact fun _ _ isEscape _ => notEscape isEscape

/-- No surrogate is written, so units are joined one by one. -/
theorem chars?_unitOf (c : Char) (units : List Unit) :
    chars? (unitOf c :: units) = (chars? units).map (c :: ·) := by
  unfold unitOf
  split
  · next low =>
    have notHigh : isHighSurrogate c.toNat = false := by
      simp only [isHighSurrogate, Bool.and_eq_false_iff, decide_eq_false_iff_not]
      omega
    have notLow : isLowSurrogate c.toNat = false := by
      simp only [isLowSurrogate, Bool.and_eq_false_iff, decide_eq_false_iff_not]
      omega
    rw [chars?.eq_def]
    simp only [notHigh, notLow, Bool.false_eq_true, if_false, Char.ofNat_toNat]
  · rfl

/-! ## Texts -/

theorem body?_encoded (rest : List Char) (text : List Char) :
    body? (text.flatMap encodeChar ++ '"' :: rest) = some (text.flatMap encodeChar, rest) := by
  induction text with
  | nil => rfl
  | cons c text ih =>
    rw [List.flatMap_cons, List.append_assoc, body?_written _ (encodeChar_written c), ih]
    rfl

theorem units?_encoded (text : List Char) :
    units? (text.flatMap encodeChar) = some (text.map unitOf) := by
  induction text with
  | nil => rfl
  | cons c text ih =>
    rw [List.flatMap_cons, units?_written _ (encodeChar_written c), ih]
    rfl

theorem chars?_units (text : List Char) : chars? (text.map unitOf) = some text := by
  induction text with
  | nil => rfl
  | cons c text ih =>
    rw [List.map_cons, chars?_unitOf, ih]
    rfl

/-- **What is written as a literal is read back**, and nothing after it is touched. -/
theorem read?_encoded (text : String) (rest : List Char) :
    read? (text.toList.flatMap encodeChar ++ '"' :: rest) = some (some text, rest) := by
  simp [read?, body?_encoded, units?_encoded, chars?_units]

end StringLiteral

end Json

end SelfTyped
