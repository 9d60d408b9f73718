/-
SelfTyped.Proofs.Numerals — reading undoes writing, for integers.

An integer is written by its decimal digits.  The digits are all read
(`digits_toDigits`), they denote the integer again (`ofDigits_toDigits`), and
the first of several is no zero (`toDigits_leading`), which a literal may not
have.  So an integer that fits 64 bits is read back where the literal ends:
`readNumber_integer`.
-/
import SelfTyped.Json.Draft
import SelfTyped.Json.Printer

namespace SelfTyped

namespace Json

/-- The text ends here, or what a literal stands in goes on or is closed. -/
def Ends (rest : List Char) : Prop :=
  ∀ c ∈ rest.head?, c = ',' ∨ c = ']' ∨ c = '}'

theorem ends_nil : Ends [] := fun _ mem => absurd mem (by simp)

theorem ends_cons {c : Char} (delimiter : c = ',' ∨ c = ']' ∨ c = '}') (rest : List Char) :
    Ends (c :: rest) := by
  intro c' mem
  rw [List.head?_cons, Option.mem_some_iff] at mem
  rw [← mem]
  exact delimiter

namespace Numeral

variable {rest : List Char}

/-- The values of the decimal digits of a number. -/
def decimals (n : Nat) : List Nat :=
  (Nat.toDigits 10 n).map fun c => c.toNat - '0'.toNat

theorem digits_toDigits (n : Nat) (ends : Ends rest) :
    digits (Nat.toDigits 10 n ++ rest) = (decimals n, rest) := by
  have all : ∀ c ∈ Nat.toDigits 10 n, c.isDigit = true :=
    fun c mem => Nat.isDigit_of_mem_toDigits (by decide) (by decide) mem
  have stops : rest.takeWhile Char.isDigit = [] ∧ rest.dropWhile Char.isDigit = rest := by
    cases rest with
    | nil => exact ⟨rfl, rfl⟩
    | cons c rest =>
      have notDigit : c.isDigit = false := by
        rcases ends c rfl with rfl | rfl | rfl <;> decide
      simp [notDigit]
  rw [digits, List.takeWhile_append_of_pos all, List.dropWhile_append_of_pos all, stops.1, stops.2,
    List.append_nil]
  rfl

theorem ofDigits_toDigits (n : Nat) : ofDigits (decimals n) = n := by
  have denotes := Nat.ofDigitChars_toDigits (b := 10) (n := n) (by decide) (by decide)
  rw [Nat.ofDigitChars_eq_foldl] at denotes
  rw [ofDigits, decimals, List.foldl_map]
  simpa only [Nat.mul_comm] using denotes

/-- The digits of a number that is not zero do not start with a zero. -/
theorem toDigits_leading {n : Nat} (positive : 0 < n) :
    ∃ first others, decimals n = first :: others ∧ first ≠ 0 := by
  induction n using Nat.strongRecOn with
  | ind n ih =>
    rw [decimals, Nat.toDigits_eq_if (by decide)]
    split
    · next small =>
      refine ⟨_, _, rfl, ?_⟩
      show n.digitChar.toNat - '0'.toNat ≠ 0
      rw [Nat.toNat_digitChar_of_lt_ten small]
      have zero : '0'.toNat = 48 := rfl
      omega
    · next large =>
      obtain ⟨first, others, leading, notZero⟩ := ih (n / 10) (by omega) (by omega)
      rw [decimals] at leading
      rw [List.map_append, leading, List.cons_append]
      exact ⟨first, _, rfl, notZero⟩

theorem whole?_toDigits (n : Nat) (ends : Ends rest) :
    whole? (Nat.toDigits 10 n ++ rest) = some (decimals n, rest) := by
  rw [whole?, digits_toDigits n ends]
  by_cases zero : n = 0
  · subst zero
    rfl
  · obtain ⟨first, others, leading, notZero⟩ := toDigits_leading (Nat.pos_of_ne_zero zero)
    rw [leading]
    split
    · next is => exact absurd is (by simp)
    · next is =>
      simp only [Prod.mk.injEq, List.cons.injEq] at is
      exact absurd is.1.1 notZero
    · rfl

theorem fraction?_ends (ends : Ends rest) : fraction? rest = some ([], rest) := by
  cases rest with
  | nil => rfl
  | cons c rest => rcases ends c rfl with rfl | rfl | rfl <;> rfl

theorem exponent?_ends (ends : Ends rest) : exponent? rest = some (none, rest) := by
  cases rest with
  | nil => rfl
  | cons c rest => rcases ends c rfl with rfl | rfl | rfl <;> rfl

/-- A number starts with a digit. -/
theorem toDigits_head (n : Nat) :
    ∃ c digits, Nat.toDigits 10 n = c :: digits ∧ c.isDigit = true := by
  cases is : Nat.toDigits 10 n with
  | nil => exact absurd is Nat.toDigits_ne_nil
  | cons c digits =>
    refine ⟨c, digits, rfl, ?_⟩
    exact Nat.isDigit_of_mem_toDigits (n := n) (by decide) (by decide) (is ▸ List.mem_cons_self)

theorem read?_toDigits (n : Nat) (ends : Ends rest) :
    read? (Nat.toDigits 10 n ++ rest) = some (⟨false, decimals n, [], none⟩, rest) := by
  obtain ⟨c, digits, head, isDigit⟩ := toDigits_head n
  have unsigned : sign (Nat.toDigits 10 n ++ rest) = (false, Nat.toDigits 10 n ++ rest) := by
    rw [head, List.cons_append, sign]
    rintro _ ⟨⟩
    exact absurd isDigit (by decide)
  rw [read?, unsigned]
  simp [whole?_toDigits n ends, fraction?_ends ends, exponent?_ends ends]

theorem read?_negative (n : Nat) (ends : Ends rest) :
    read? ('-' :: (Nat.toDigits 10 n ++ rest)) = some (⟨true, decimals n, [], none⟩, rest) := by
  rw [read?, sign]
  simp [whole?_toDigits n ends, fraction?_ends ends, exponent?_ends ends]

theorem integer?_natural {n : Nat} (small : n < wordCount) :
    integer? ⟨false, decimals n, [], none⟩ = some (n : Int) := by
  simp [integer?, ofDigits_toDigits, small]

theorem integer?_negative {n : Nat} (positive : 0 < n) (small : n ≤ wordCount / 2) :
    integer? ⟨true, decimals n, [], none⟩ = some (-(n : Int)) := by
  simp [integer?, ofDigits_toDigits, positive, small]

end Numeral

/-- An integer that fits 64 bits, signed if it is negative and unsigned if it is not. -/
def Fits (value : Int) : Prop :=
  -(Numeral.wordCount / 2 : Nat) ≤ value ∧ value < (Numeral.wordCount : Nat)

instance (value : Int) : Decidable (Fits value) :=
  inferInstanceAs (Decidable (_ ∧ _))

/-- **An integer that is written as a literal is read back.** -/
theorem readNumber_integer {value : Int} {rest : List Char} (fits : Fits value)
    (ends : Ends rest) :
    Draft.readNumber ((Number.integer value).render ++ rest) =
      (.number (.integer value), some rest) := by
  obtain ⟨atLeast, below⟩ := fits
  rw [Number.render]
  change Draft.readNumber (value.repr.toList ++ rest) = _
  rw [Int.repr_eq_if]
  split
  · next natural =>
    obtain ⟨n, rfl⟩ := Int.eq_ofNat_of_zero_le natural
    have small : n < Numeral.wordCount := by omega
    rw [Int.toNat_natCast, Nat.toList_repr, Draft.readNumber, Numeral.read?_toDigits n ends]
    simp only [Numeral.value?, Numeral.integer?_natural small]
  · next negative =>
    obtain ⟨n, rfl⟩ : ∃ n : Nat, value = -(n : Int) := ⟨(-value).toNat, by omega⟩
    have positive : 0 < n := by omega
    have small : n ≤ Numeral.wordCount / 2 := by omega
    have sign : "-".toList = ['-'] := rfl
    rw [Int.neg_neg, Int.toNat_natCast, String.toList_append, Nat.toList_repr, sign,
      List.singleton_append, List.cons_append, Draft.readNumber, Numeral.read?_negative n ends]
    simp only [Numeral.value?, Numeral.integer?_negative positive small]

end Json

end SelfTyped
