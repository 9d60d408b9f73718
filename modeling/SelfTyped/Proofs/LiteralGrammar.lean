/-
SelfTyped.Proofs.LiteralGrammar — literals are read as the grammar derives
them.

For numbers and for strings there are two statements each.  What is read as a
literal is one, and is all of the text up to the rest (`exists_number`,
`exists_literal`).  And a literal is read to its end, whatever stands behind it
(`read?_append`, `readLiteral_append`) — except that a number goes on as far as
it can, so what stands behind it must not look like more of it (`Breaks`).
-/
import Mathlib.Data.List.TakeWhile
import SelfTyped.Json.Grammar
import SelfTyped.Proofs.StringLiterals

namespace SelfTyped

namespace Json

namespace Grammar

variable {text front rest : List Char} {c : Char}

/-! ## Numbers that are read -/

theorem exists_digits {digits : List Nat} (read : Numeral.digits text = (digits, rest))
    (nonempty : digits ≠ []) :
    ∃ front, Digits front ∧ text = front ++ rest ∧ digits = values front := by
  cases read
  refine ⟨text.takeWhile Char.isDigit, ⟨?_, fun _ mem => List.mem_takeWhile_imp mem⟩,
    List.takeWhile_append_dropWhile.symm, rfl⟩
  exact fun empty => nonempty (List.map_eq_nil_iff.mpr empty)

theorem exists_whole {digits : List Nat} (read : Numeral.whole? text = some (digits, rest)) :
    ∃ front, Whole front digits ∧ text = front ++ rest := by
  rw [Numeral.whole?] at read
  split at read
  · cases read
  · cases read
  · next notEmpty notPadded =>
    obtain ⟨front, isDigits, rfl, rfl⟩ := exists_digits (Option.some.inj read) fun empty =>
      notEmpty rest (by rw [Option.some.inj read, empty])
    refine ⟨front, .digits isDigits fun zero => ?_, rfl⟩
    obtain - | ⟨first, - | ⟨second, others⟩⟩ := front
    · cases zero
    · rw [Option.some.inj zero]
    · obtain rfl := Option.some.inj zero
      exact absurd (Option.some.inj read) (notPadded _ _ _)

theorem exists_fraction {digits : List Nat} (read : Numeral.fraction? text = some (digits, rest)) :
    ∃ front, Fraction front digits ∧ text = front ++ rest := by
  rw [Numeral.fraction?.eq_def] at read
  split at read
  · split at read
    · cases read
    · next notEmpty =>
      obtain ⟨front, isDigits, rfl, rfl⟩ := exists_digits (Option.some.inj read) fun empty =>
        notEmpty rest (by rw [Option.some.inj read, empty])
      exact ⟨_, .point isDigits, rfl⟩
  · cases read
    exact ⟨[], .none, rfl⟩

/-- The sign of an exponent is read before its digits. -/
theorem exists_exponentSign (text : List Char) : ∃ front behind negative,
    ExponentSign front negative ∧ text = front ++ behind ∧
      Numeral.exponentDigits? text =
        match Numeral.digits behind with
        | ([], _) => none
        | (digits, rest) => some (some (negative, digits), rest) := by
  unfold Numeral.exponentDigits?
  split
  next signed =>
    split at signed <;> cases signed
    · exact ⟨['-'], _, _, .minus, rfl, rfl⟩
    · exact ⟨['+'], _, _, .plus, rfl, rfl⟩
    · exact ⟨[], _, _, .none, rfl, rfl⟩

theorem exists_exponent {exponent : Option (Bool × List Nat)}
    (read : Numeral.exponent? text = some (exponent, rest)) :
    ∃ front, Exponent front exponent ∧ text = front ++ rest := by
  have lettered : ∀ letter behind, (letter = 'e' ∨ letter = 'E') →
      Numeral.exponentDigits? behind = some (exponent, rest) →
      ∃ front, Exponent front exponent ∧ letter :: behind = front ++ rest := by
    intro letter text isLetter read
    obtain ⟨front, behind, negative, sign, rfl, signed⟩ := exists_exponentSign text
    rw [signed] at read
    split at read
    · cases read
    · next notEmpty readDigits =>
      cases read
      obtain ⟨digits, isDigits, rfl, rfl⟩ := exists_digits readDigits notEmpty
      exact ⟨_, .letter isLetter sign isDigits, by simp⟩
  rw [Numeral.exponent?.eq_def] at read
  split at read
  · exact lettered _ _ (.inl rfl) read
  · exact lettered _ _ (.inr rfl) read
  · cases read
    exact ⟨[], .none, rfl⟩

theorem exists_sign (text : List Char) :
    ∃ front, Sign front (Numeral.sign text).1 ∧ text = front ++ (Numeral.sign text).2 := by
  rw [Numeral.sign.eq_def]
  split
  · exact ⟨['-'], .minus, rfl⟩
  · exact ⟨[], .none, rfl⟩

/-- What is read as a number literal is one. -/
theorem exists_number {n : Numeral} (read : Numeral.read? text = some (n, rest)) :
    ∃ front, Number front n ∧ text = front ++ rest := by
  rw [Numeral.read?] at read
  simp only [Option.bind_eq_bind, Option.bind_eq_some_iff] at read
  obtain ⟨⟨whole, _⟩, readWhole, ⟨fraction, _⟩, readFraction, ⟨exponent, _⟩, readExponent, read⟩ :=
    read
  cases read
  obtain ⟨front, sign, is⟩ := exists_sign text
  obtain ⟨middle, isWhole, is'⟩ := exists_whole readWhole
  obtain ⟨back, isFraction, rfl⟩ := exists_fraction readFraction
  obtain ⟨last, isExponent, rfl⟩ := exists_exponent readExponent
  exact ⟨_, .parts sign isWhole isFraction isExponent, by rw [is, is']; simp⟩

/-! ## Numbers that are derived -/

/-- No number goes on with this text. -/
def Breaks (rest : List Char) : Prop :=
  ∀ c ∈ rest.head?, c.isDigit = false ∧ c ≠ '.' ∧ c ≠ 'e' ∧ c ≠ 'E'

theorem Digits.head (digits : Digits text) : ∃ c tail, text = c :: tail ∧ c.isDigit = true := by
  cases text with
  | nil => exact absurd rfl digits.1
  | cons c tail => exact ⟨c, tail, rfl, digits.2 c List.mem_cons_self⟩

theorem digits_append (digits : Digits text) (stops : ∀ c ∈ rest.head?, c.isDigit = false) :
    Numeral.digits (text ++ rest) = (values text, rest) := by
  have stop : rest.takeWhile Char.isDigit = [] ∧ rest.dropWhile Char.isDigit = rest := by
    cases rest with
    | nil => exact ⟨rfl, rfl⟩
    | cons c rest => simp [stops c rfl]
  rw [Numeral.digits, List.takeWhile_append_of_pos digits.2, List.dropWhile_append_of_pos digits.2,
    stop.1, stop.2, List.append_nil]
  rfl

theorem values_ne_nil (digits : Digits text) : values text ≠ [] :=
  fun empty => digits.1 (List.map_eq_nil_iff.mp empty)

/-- Zero is the only digit with the value zero. -/
theorem eq_zero_of_value (digit : c.isDigit = true) (zero : c.toNat - '0'.toNat = 0) :
    c = '0' := by
  have atLeast : '0'.toNat ≤ c.toNat := by
    simp only [Char.isDigit, Bool.and_eq_true, decide_eq_true_eq] at digit
    exact digit.1
  exact Char.toNat_inj.mp (by omega)

theorem whole?_append {digits : List Nat} (whole : Whole text digits)
    (stops : ∀ c ∈ rest.head?, c.isDigit = false) :
    Numeral.whole? (text ++ rest) = some (digits, rest) := by
  obtain ⟨isDigits, alone⟩ := whole
  rw [Numeral.whole?, digits_append isDigits stops]
  split
  · next is => exact absurd (Prod.mk.inj is).1 (values_ne_nil isDigits)
  · next is =>
    obtain - | ⟨first, - | ⟨second, others⟩⟩ := text
    · exact absurd (Prod.mk.inj is).1 (by simp [values])
    · exact absurd (Prod.mk.inj is).1 (by simp [values])
    · have zero := eq_zero_of_value (isDigits.2 first List.mem_cons_self)
        (List.cons.inj (Prod.mk.inj is).1).1
      exact absurd (alone (congrArg some zero)) (by simp)
  · rfl

theorem fraction?_append {digits : List Nat} (fraction : Fraction text digits)
    (stops : ∀ c ∈ rest.head?, c.isDigit = false ∧ c ≠ '.') :
    Numeral.fraction? (text ++ rest) = some (digits, rest) := by
  cases fraction with
  | none =>
    rw [List.nil_append, Numeral.fraction?.eq_def]
    split
    · exact absurd rfl (stops '.' rfl).2
    · rfl
  | point isDigits =>
    rw [List.cons_append, Numeral.fraction?, digits_append isDigits fun c mem => (stops c mem).1]
    split
    · next is => exact absurd (Prod.mk.inj is).1 (values_ne_nil isDigits)
    · rfl

theorem exponentDigits?_append {negative : Bool} (sign : ExponentSign front negative)
    (digits : Digits text) (stops : ∀ c ∈ rest.head?, c.isDigit = false) :
    Numeral.exponentDigits? (front ++ (text ++ rest)) =
      some (some (negative, values text), rest) := by
  have signed : Numeral.exponentDigits? (front ++ (text ++ rest)) =
      match Numeral.digits (text ++ rest) with
      | ([], _) => none
      | (digits, rest) => some (some (negative, digits), rest) := by
    cases sign with
    | plus | minus => rfl
    | none =>
      obtain ⟨c, tail, rfl, digit⟩ := digits.head
      have other : ∀ d, d.isDigit = false → c ≠ d := by
        rintro d notDigit rfl
        exact absurd digit (by simp [notDigit])
      unfold Numeral.exponentDigits?
      rw [List.nil_append, List.cons_append]
      split
      next signed =>
        split at signed
        · next is => exact absurd (List.cons.inj is).1 (other _ rfl)
        · next is => exact absurd (List.cons.inj is).1 (other _ rfl)
        · cases signed
          rfl
  rw [signed, digits_append digits stops]
  split
  · next is => exact absurd (Prod.mk.inj is).1 (values_ne_nil digits)
  · next is =>
    obtain ⟨rfl, rfl⟩ := Prod.mk.inj is
    rfl

theorem exponent?_append {exponent : Option (Bool × List Nat)} (isExponent : Exponent text exponent)
    (breaks : Breaks rest) : Numeral.exponent? (text ++ rest) = some (exponent, rest) := by
  have stops : ∀ c ∈ rest.head?, c.isDigit = false := fun c mem => (breaks c mem).1
  cases isExponent with
  | none =>
    rw [List.nil_append, Numeral.exponent?.eq_def]
    split
    · exact absurd rfl (breaks 'e' rfl).2.2.1
    · exact absurd rfl (breaks 'E' rfl).2.2.2
    · rfl
  | letter isLetter sign digits =>
    have read := exponentDigits?_append sign digits stops
    rw [List.cons_append, List.append_assoc]
    rcases isLetter with rfl | rfl <;> exact read

theorem sign_append {negative : Bool} (isSign : Sign front negative) (digits : Digits text)
    (rest : List Char) : Numeral.sign (front ++ (text ++ rest)) = (negative, text ++ rest) := by
  cases isSign with
  | minus => rfl
  | none =>
    obtain ⟨c, tail, rfl, digit⟩ := digits.head
    rw [List.nil_append, List.cons_append, Numeral.sign.eq_def]
    split
    · next is =>
      obtain rfl := (List.cons.inj is).1
      cases digit
    · rfl

theorem Exponent.stops {exponent : Option (Bool × List Nat)} (isExponent : Exponent text exponent)
    (breaks : Breaks rest) : ∀ c ∈ (text ++ rest).head?, c.isDigit = false ∧ c ≠ '.' := by
  cases isExponent with
  | none => exact fun c mem => ⟨(breaks c mem).1, (breaks c mem).2.1⟩
  | letter isLetter =>
    rintro c ⟨⟩
    rcases isLetter with rfl | rfl <;> decide

theorem Fraction.stops {digits : List Nat} (fraction : Fraction text digits)
    (stops : ∀ c ∈ rest.head?, c.isDigit = false) :
    ∀ c ∈ (text ++ rest).head?, c.isDigit = false := by
  cases fraction with
  | none => exact stops
  | point =>
    rintro c ⟨⟩
    rfl

/-- **A number literal is read to its end.** -/
theorem read?_append {n : Numeral} (number : Number text n) (breaks : Breaks rest) :
    Numeral.read? (text ++ rest) = some (n, rest) := by
  cases number with
  | @parts front middle back last _ sign whole fraction exponent =>
    have afterFraction := exponent.stops breaks
    have afterWhole := fraction.stops fun c mem => (afterFraction c mem).1
    obtain ⟨negative, digits, fractionDigits, written⟩ := n
    have isDigits : Digits middle := by
      cases whole with
      | digits isDigits => exact isDigits
    simp only [Numeral.read?, List.append_assoc, sign_append sign isDigits,
      whole?_append whole afterWhole, fraction?_append fraction afterFraction,
      exponent?_append exponent breaks, Option.bind_eq_bind, Option.bind_some, Option.pure_def]

/-! ## Strings -/

section Strings

variable {piece body : List Char} {unit : StringLiteral.Unit} {units : List StringLiteral.Unit}
  {value : Option String}

theorem hexDigit?_plain {digit : Nat} (read : StringLiteral.hexDigit? c = some digit) :
    c ≠ '"' ∧ c ≠ '\\' := by
  constructor <;> (rintro rfl; cases read)

theorem codeUnit?_plain {a b c d : Char} {code : Nat}
    (read : StringLiteral.codeUnit? a b c d = some code) :
    ∀ digit ∈ [a, b, c, d], digit ≠ '"' ∧ digit ≠ '\\' := by
  simp only [StringLiteral.codeUnit?, Option.bind_eq_bind, Option.bind_eq_some_iff] at read
  obtain ⟨_, first, _, second, _, third, _, fourth, -⟩ := read
  simp only [List.forall_mem_cons]
  exact ⟨hexDigit?_plain first, hexDigit?_plain second, hexDigit?_plain third,
    hexDigit?_plain fourth, by simp⟩

theorem body?_word {word : List Char} (plain : ∀ c ∈ word, c ≠ '"' ∧ c ≠ '\\')
    (text : List Char) : StringLiteral.body? (word ++ text) =
      (StringLiteral.body? text).map fun (body, after) => (word ++ body, after) := by
  induction word with
  | nil => simp
  | cons c word ih =>
    rw [List.forall_mem_cons] at plain
    rw [List.cons_append, StringLiteral.body?_plain _ plain.1.1 plain.1.2, ih plain.2,
      Option.map_map]
    rfl

/-- The closing quote is sought behind a piece. -/
theorem body?_piece (isPiece : Piece piece unit) (text : List Char) :
    StringLiteral.body? (piece ++ text) =
      (StringLiteral.body? text).map fun (body, after) => (piece ++ body, after) := by
  cases isPiece with
  | plain notQuote notEscape => exact StringLiteral.body?_plain text notQuote notEscape
  | short => rfl
  | @code a b c d _ digits =>
    have after : StringLiteral.body? ('\\' :: 'u' :: ([a, b, c, d] ++ text)) =
        (StringLiteral.body? ([a, b, c, d] ++ text)).map fun (body, after) =>
          ('\\' :: 'u' :: body, after) := rfl
    rw [body?_word (codeUnit?_plain digits), Option.map_map] at after
    exact after

/-- A piece is resolved by itself. -/
theorem units?_piece (isPiece : Piece piece unit) (text : List Char) :
    StringLiteral.units? (piece ++ text) = (StringLiteral.units? text).map (unit :: ·) := by
  cases isPiece with
  | plain notQuote notEscape high =>
    rw [List.singleton_append, StringLiteral.units?, if_neg (not_or.mpr ⟨notEscape, high⟩)]
    · exact fun _ _ _ _ _ is _ => notEscape is
    · exact fun _ _ is _ => notEscape is
  | short escaped =>
    simp only [List.cons_append, List.nil_append]
    rw [StringLiteral.units?, escaped]
    · cases StringLiteral.units? text <;> rfl
    · rintro _ _ _ _ _ rfl -
      cases escaped
  | code digits =>
    simp only [List.cons_append, List.nil_append]
    rw [StringLiteral.units?, digits]
    cases StringLiteral.units? text <;> rfl

theorem body?_pieces (pieces : Pieces body units) (rest : List Char) :
    StringLiteral.body? (body ++ '"' :: rest) = some (body, rest) := by
  induction pieces with
  | nil => rfl
  | cons piece _ ih =>
    rw [List.append_assoc, body?_piece piece, ih]
    rfl

theorem units?_pieces (pieces : Pieces body units) :
    StringLiteral.units? body = some units := by
  induction pieces with
  | nil => rfl
  | cons piece _ ih =>
    rw [units?_piece piece, ih]
    rfl

/-- **A string literal is read to its closing quote.** -/
theorem readLiteral_append (literal : Literal ('"' :: text) value) (rest : List Char) :
    StringLiteral.read? (text ++ rest) = some (value, rest) := by
  generalize is : '"' :: text = whole at literal
  cases literal with
  | quoted pieces =>
    obtain rfl := (List.cons.inj is).2
    rw [StringLiteral.read?, List.append_assoc, List.singleton_append, body?_pieces pieces]
    simp [units?_pieces pieces]

/-- What stands before the closing quote is the body. -/
theorem eq_of_body? (read : StringLiteral.body? text = some (body, rest)) :
    text = body ++ '"' :: rest := by
  induction text using StringLiteral.body?.induct generalizing body with
  | case1 => cases read
  | case2 text =>
    cases read
    rfl
  | case3 c text ih =>
    rw [StringLiteral.body?, Option.map_eq_some_iff] at read
    obtain ⟨⟨inner, _⟩, read, ⟨⟩⟩ := read
    rw [ih read]
    rfl
  | case4 c text notQuote notEscape ih =>
    rw [StringLiteral.body?, Option.map_eq_some_iff] at read
    · obtain ⟨⟨inner, _⟩, read, ⟨⟩⟩ := read
      rw [ih read]
      rfl
    · exact notQuote
    · exact notEscape

/-- What follows a piece is a body by itself. -/
theorem body?_behind (isPiece : Piece piece unit)
    (read : StringLiteral.body? (piece ++ (body ++ '"' :: rest)) = some (piece ++ body, rest)) :
    StringLiteral.body? (body ++ '"' :: rest) = some (body, rest) := by
  rw [body?_piece isPiece, Option.map_eq_some_iff] at read
  obtain ⟨⟨body', rest'⟩, read, is⟩ := read
  rw [Prod.mk.injEq, List.append_cancel_left_eq] at is
  obtain ⟨rfl, rfl⟩ := is
  exact read

/-- A body goes on with pieces if it starts with one. -/
theorem pieces_of_behind (isPiece : Piece piece unit)
    (resolved : StringLiteral.units? (piece ++ body) = some units)
    (read : StringLiteral.body? (piece ++ (body ++ '"' :: rest)) = some (piece ++ body, rest))
    (others : ∀ {units : List StringLiteral.Unit}, StringLiteral.units? body = some units →
      StringLiteral.body? (body ++ '"' :: rest) = some (body, rest) → Pieces body units) :
    Pieces (piece ++ body) units := by
  rw [units?_piece isPiece, Option.map_eq_some_iff] at resolved
  obtain ⟨units, resolved, rfl⟩ := resolved
  exact .cons isPiece (others resolved (body?_behind isPiece read))

/-- A body whose escapes are resolved consists of pieces. -/
theorem pieces_of_read (resolved : StringLiteral.units? body = some units)
    (read : StringLiteral.body? (body ++ '"' :: rest) = some (body, rest)) : Pieces body units := by
  induction body using StringLiteral.units?.induct generalizing units with
  | case1 =>
    cases resolved
    exact .nil
  | case2 a b c d body ih =>
    have unit := resolved
    rw [StringLiteral.units?, Option.bind_eq_bind, Option.bind_eq_some_iff] at unit
    obtain ⟨_, digits, -⟩ := unit
    have whole : Pieces (['\\', 'u', a, b, c, d] ++ body) units :=
      pieces_of_behind (.code digits) resolved read ih
    exact whole
  | case3 c body notCode ih =>
    have unit := resolved
    rw [StringLiteral.units?, Option.bind_eq_bind, Option.bind_eq_some_iff] at unit
    · obtain ⟨_, escaped, -⟩ := unit
      have whole : Pieces (['\\', c] ++ body) units :=
        pieces_of_behind (.short escaped) resolved read ih
      exact whole
    · exact notCode
  | case4 c body notCode notShort control =>
    rw [StringLiteral.units?, if_pos control] at resolved
    · cases resolved
    · exact notCode
    · exact notShort
  | case5 c body notCode notShort plain ih =>
    rw [not_or] at plain
    have notQuote : c ≠ '"' := by
      rintro rfl
      cases read
    have whole : Pieces ([c] ++ body) units :=
      pieces_of_behind (.plain notQuote plain.1 plain.2) resolved read ih
    exact whole

/-- What is read as a string literal is one. -/
theorem exists_literal (read : StringLiteral.read? text = some (value, rest)) :
    ∃ front, Literal ('"' :: front) value ∧ text = front ++ rest := by
  rw [StringLiteral.read?, Option.bind_eq_bind, Option.bind_eq_some_iff] at read
  obtain ⟨⟨body, after⟩, split, read⟩ := read
  obtain ⟨units, resolved, read⟩ := Option.bind_eq_some_iff.mp read
  cases read
  obtain rfl := eq_of_body? split
  exact ⟨_, .quoted (pieces_of_read resolved split), by simp⟩

end Strings

end Grammar

end Json

end SelfTyped
