/-
SelfTyped.Proofs.ByteNesting — measuring bytes is measuring characters.

The scanner looks for a handful of ASCII characters.  In UTF-8 each of them is
one byte, and all bytes of other characters lie above ASCII, so the bytes of a
character lead the scanner where the character does (`foldl_stepByte_char`).
The only state that tells such bytes apart is the one after a backslash: the
first byte is what the backslash hides.
-/
import SelfTyped.Json.Nesting

namespace SelfTyped

namespace Json

open Scan

/-! ## Characters beyond ASCII -/

/-- A character that means nothing to the scanner but that a backslash may hide it. -/
def IsForeign (c : Char) : Prop :=
  127 < c.toNat

variable {s : Scan} {c : Char}

theorem IsForeign.ne (foreign : IsForeign c) {d : Char} (ascii : d.toNat ≤ 127) : c ≠ d := by
  rintro rfl
  exact absurd ascii (Nat.not_le.mpr foreign)

/-- A character beyond ASCII is at most hidden by a backslash. -/
theorem step_foreign (foreign : IsForeign c) :
    s.step c = if s.inString then { s with escaped := false } else s := by
  have backslash := foreign.ne (d := '\\') (by decide)
  have quote := foreign.ne (d := '"') (by decide)
  have brace := foreign.ne (d := '{') (by decide)
  have bracket := foreign.ne (d := '[') (by decide)
  have brace' := foreign.ne (d := '}') (by decide)
  have bracket' := foreign.ne (d := ']') (by decide)
  obtain ⟨depth, deepest, inString, escaped⟩ := s
  cases inString <;> cases escaped <;>
    simp [Scan.step, stepString, stepOutside, backslash, quote, brace, bracket, brace', bracket']

theorem foldl_step_foreign {bytes : List UInt8}
    (foreign : ∀ byte ∈ bytes, IsForeign (.ofUInt8 byte)) (nonempty : bytes ≠ []) (s : Scan) :
    bytes.foldl stepByte s = if s.inString then { s with escaped := false } else s := by
  induction bytes generalizing s with
  | nil => exact absurd rfl nonempty
  | cons byte bytes ih =>
    rw [List.forall_mem_cons] at foreign
    have first : s.stepByte byte = _ := step_foreign foreign.1
    rw [List.foldl_cons, first]
    by_cases last : bytes = []
    · rw [last, List.foldl_nil]
    · rw [ih foreign.2 last]
      obtain ⟨depth, deepest, inString, escaped⟩ := s
      cases inString <;> rfl

/-! ## Bytes of a character -/

theorem toNat_ofUInt8_ofNat {n : Nat} (small : n < 256) :
    (Char.ofUInt8 (UInt8.ofNat n)).toNat = n := by
  have byte : (UInt8.ofNat n).toNat = n := UInt8.toNat_ofNat_of_lt' small
  exact (UInt8.toNat_toUInt32 _).trans byte

theorem utf8EncodeChar_ascii (ascii : c.toNat ≤ 127) :
    String.utf8EncodeChar c = [UInt8.ofNat c.toNat] :=
  if_pos ascii

theorem ofUInt8_ofNat (ascii : c.toNat ≤ 127) : Char.ofUInt8 (UInt8.ofNat c.toNat) = c :=
  Char.toNat_inj.mp (toNat_ofUInt8_ofNat (by omega))

theorem isForeign_ofNat {n : Nat} (large : 127 < n) (small : n < 256) :
    IsForeign (.ofUInt8 (UInt8.ofNat n)) := by
  rw [IsForeign, toNat_ofUInt8_ofNat small]
  exact large

/-- The first byte of a character beyond ASCII is at least 192, the others are at least 128. -/
theorem utf8EncodeChar_foreign (foreign : IsForeign c) :
    ∀ byte ∈ String.utf8EncodeChar c, IsForeign (.ofUInt8 byte) := by
  have notAscii : ¬ c.val.toNat ≤ 127 := Nat.not_le.mpr foreign
  fun_cases String.utf8EncodeChar c with
  | case1 _ ascii => exact absurd ascii notAscii
  | case2 | case3 | case4 =>
    simp only [List.forall_mem_cons]
    repeat refine ⟨isForeign_ofNat (by omega) (by omega), ?_⟩
    exact List.forall_mem_nil _

/-- The bytes of a character lead the scanner where the character does. -/
theorem foldl_stepByte_char (s : Scan) (c : Char) :
    (String.utf8EncodeChar c).foldl stepByte s = s.step c := by
  by_cases ascii : c.toNat ≤ 127
  · rw [utf8EncodeChar_ascii ascii, List.foldl_cons, List.foldl_nil, stepByte,
      ofUInt8_ofNat ascii]
  · have foreign : IsForeign c := Nat.lt_of_not_le ascii
    rw [foldl_step_foreign (utf8EncodeChar_foreign foreign) String.utf8EncodeChar_ne_nil,
      step_foreign foreign]

/-- **The bytes of a text measure what its characters measure.** -/
theorem nestingDepthOfBytes_toUTF8 (text : String) :
    nestingDepthOfBytes text.toUTF8.data.toList = nestingDepth text.toList := by
  have bytes : text.toUTF8.data.toList = text.toList.flatMap String.utf8EncodeChar := by
    rw [String.toUTF8_eq_toByteArray, ← String.utf8Encode_toList, List.utf8Encode,
      List.toList_data_toByteArray]
  rw [nestingDepthOfBytes, nestingDepth, bytes, List.foldl_flatMap]
  simp only [foldl_stepByte_char]

end Json

end SelfTyped
