/-
SelfTyped.Proofs.JsonNesting — the measure of nesting is the depth of the
value.

The scanner knows quotes, escapes and brackets, and nothing else of JSON.
That this is enough on well-formed text is shown along the reader: whatever
part of a text a reading function passes over, the scanner passes over too, and
comes out where it went in except that it has seen so many more levels
(`Spans`).  Parts compose (`Spans.trans`), literals add no level, and a pair
of brackets adds one to what stands between (`Spans.enclosed`).

The argument holds for drafts (`Draft.nestingDepth_read`), so it covers
literals that are well-formed but have no value.  For texts with a value it
says that the measure is the depth of the value (`nestingDepth_of_parse?`).
-/
import SelfTyped.Json.Nesting
import SelfTyped.Proofs.JsonText

namespace SelfTyped

namespace Json

namespace Scan

/-- Outside of string literals, as before the first character. -/
structure Outside (s : Scan) : Prop where
  text : s.inString = false
  escape : s.escaped = false
  reached : s.depth ≤ s.deepest

/-- A state once so many more levels have been opened and closed again. -/
def reach (s : Scan) (levels : Nat) : Scan :=
  { s with deepest := max s.deepest (s.depth + levels) }

variable {s : Scan}

theorem Outside.reach (outside : s.Outside) (levels : Nat) : (s.reach levels).Outside :=
  ⟨outside.text, outside.escape, Nat.le_trans outside.reached (Nat.le_max_left ..)⟩

theorem reach_zero (outside : s.Outside) : s.reach 0 = s := by
  rw [reach, Nat.add_zero, Nat.max_eq_left outside.reached]

theorem reach_reach (a b : Nat) : (s.reach a).reach b = s.reach (max a b) := by
  simp only [reach, Scan.mk.injEq, and_true, true_and]
  omega

end Scan

open Scan

/-! ## Spans -/

/-- The text before `rest` leads the scanner back to where it was, so many levels seen. -/
def Spans (text rest : List Char) (levels : Nat) : Prop :=
  ∃ front, text = front ++ rest ∧
    ∀ s : Scan, s.Outside → front.foldl Scan.step s = s.reach levels

/-- A character that means nothing to the scanner outside of string literals. -/
def IsPlain (c : Char) : Prop :=
  c ≠ '"' ∧ c ≠ '{' ∧ c ≠ '[' ∧ c ≠ '}' ∧ c ≠ ']'

instance : DecidablePred IsPlain := fun _ => inferInstanceAs (Decidable (_ ∧ _))

variable {text middle rest : List Char} {c : Char} {m n : Nat}

theorem step_plain {s : Scan} (outside : s.Outside) (plain : IsPlain c) : s.step c = s := by
  obtain ⟨quote, brace, bracket, brace', bracket'⟩ := plain
  simp [Scan.step, outside.text, stepOutside, quote, brace, bracket, brace', bracket']

namespace Spans

theorem refl (text : List Char) : Spans text text 0 :=
  ⟨[], rfl, fun _ outside => (reach_zero outside).symm⟩

theorem trans (first : Spans text middle m) (second : Spans middle rest n) :
    Spans text rest (max m n) := by
  obtain ⟨front, rfl, passes⟩ := first
  obtain ⟨front', rfl, passes'⟩ := second
  refine ⟨front ++ front', (List.append_assoc ..).symm, fun s outside => ?_⟩
  rw [List.foldl_append, passes s outside, passes' _ (outside.reach m), reach_reach]

/-- What adds no level can be put in front. -/
theorem after (first : Spans text middle 0) (second : Spans middle rest n) : Spans text rest n :=
  Nat.zero_max n ▸ first.trans second

/-- What adds no level can be put behind. -/
theorem before (first : Spans text middle m) (second : Spans middle rest 0) : Spans text rest m :=
  Nat.max_zero m ▸ first.trans second

theorem plain (plain : IsPlain c) (rest : List Char) : Spans (c :: rest) rest 0 := by
  refine ⟨[c], rfl, fun s outside => ?_⟩
  rw [List.foldl_cons, step_plain outside plain, reach_zero outside]
  rfl

theorem word (word : List Char) (each : ∀ c ∈ word, IsPlain c) (rest : List Char) :
    Spans (word ++ rest) rest 0 := by
  induction word with
  | nil => exact refl rest
  | cons c word ih =>
    rw [List.forall_mem_cons] at each
    exact (plain each.1 _).after (ih each.2)

/-- Plain characters at the start of a text. -/
theorem dropWhile {p : Char → Bool} (each : ∀ c, p c = true → IsPlain c) (text : List Char) :
    Spans text (text.dropWhile p) 0 := by
  induction text with
  | nil => exact refl []
  | cons c text ih =>
    rw [List.dropWhile_cons]
    split
    · next holds => exact (plain (each c holds) text).after ih
    · exact refl _

theorem blanks (text : List Char) : Spans text (skipBlanks text) 0 := by
  refine dropWhile (fun c blank => ?_) text
  simp only [isBlank, Bool.or_eq_true, beq_iff_eq] at blank
  rcases blank with ((rfl | rfl) | rfl) | rfl <;> decide

/-- Brackets add one level to what they enclose. -/
theorem enclosed {left right : Char} (opens : left = '{' ∨ left = '[')
    (closes : right = '}' ∨ right = ']') (inner : Spans text (right :: rest) n) :
    Spans (left :: text) rest (n + 1) := by
  obtain ⟨front, rfl, passes⟩ := inner
  refine ⟨left :: (front ++ [right]), by simp, fun s outside => ?_⟩
  have opened : s.step left =
      { s with depth := s.depth + 1, deepest := max s.deepest (s.depth + 1) } := by
    rcases opens with rfl | rfl <;> simp [Scan.step, outside.text, stepOutside]
  have closed : ∀ s : Scan, s.Outside → s.step right = { s with depth := s.depth - 1 } := by
    intro s outside
    rcases closes with rfl | rfl <;> simp [Scan.step, outside.text, stepOutside]
  have inside : (s.step left).Outside := by
    rw [opened]
    exact ⟨outside.text, outside.escape, Nat.le_max_right ..⟩
  rw [List.foldl_cons, List.foldl_append, passes _ inside, List.foldl_cons, List.foldl_nil,
    closed _ (inside.reach n), opened]
  simp only [Scan.reach, Scan.mk.injEq, and_true, Nat.add_sub_cancel, true_and]
  omega

end Spans

/-! ## Literals -/

/-- The scanner leaves a string literal at the quote at which the reader does. -/
theorem body?_spans {text body rest : List Char}
    (read : StringLiteral.body? text = some (body, rest)) :
    ∃ front, text = front ++ rest ∧ ∀ s : Scan, s.Outside →
      front.foldl Scan.step { s with inString := true } = s := by
  induction text using StringLiteral.body?.induct generalizing body with
  | case1 => cases read
  | case2 text =>
    rw [StringLiteral.body?, Option.some.injEq, Prod.mk.injEq] at read
    obtain ⟨-, rfl⟩ := read
    refine ⟨['"'], rfl, fun s outside => ?_⟩
    obtain ⟨depth, deepest, inString, escaped⟩ := s
    obtain ⟨rfl, rfl, -⟩ := outside
    rfl
  | case3 c text ih =>
    rw [StringLiteral.body?, Option.map_eq_some_iff] at read
    obtain ⟨⟨inner, _⟩, read, ⟨⟩⟩ := read
    obtain ⟨front, rfl, passes⟩ := ih read
    refine ⟨'\\' :: c :: front, rfl, fun s outside => ?_⟩
    rw [List.foldl_cons, List.foldl_cons]
    have hidden : (({ s with inString := true }).step '\\').step c =
        { s with inString := true } := by
      simp [Scan.step, stepString, outside.escape]
    rw [hidden, passes s outside]
  | case4 c text notQuote notEscape ih =>
    rw [StringLiteral.body?, Option.map_eq_some_iff] at read
    · obtain ⟨⟨inner, _⟩, read, ⟨⟩⟩ := read
      obtain ⟨front, rfl, passes⟩ := ih read
      refine ⟨c :: front, rfl, fun s outside => ?_⟩
      -- A backslash would have been passed together with the character after it.
      have notBackslash : c ≠ '\\' := by
        rintro rfl
        cases is : front ++ rest with
        | nil =>
          rw [is] at read
          cases read
        | cons c' tail => exact notEscape c' tail rfl is
      have unchanged : ({ s with inString := true } : Scan).step c =
          { s with inString := true } := by
        simp [Scan.step, stepString, outside.escape, notBackslash, show c ≠ '"' from notQuote]
      rw [List.foldl_cons, unchanged, passes s outside]
    · exact notQuote
    · exact notEscape

theorem Spans.string {text rest : List Char} {value : Option String}
    (read : StringLiteral.read? text = some (value, rest)) : Spans ('"' :: text) rest 0 := by
  rw [StringLiteral.read?, Option.bind_eq_bind, Option.bind_eq_some_iff] at read
  obtain ⟨⟨body, after⟩, split, read⟩ := read
  obtain ⟨units, -, read⟩ := Option.bind_eq_some_iff.mp read
  cases read
  obtain ⟨front, rfl, passes⟩ := body?_spans split
  refine ⟨'"' :: front, rfl, fun s outside => ?_⟩
  have opened : s.step '"' = { s with inString := true } := by
    simp [Scan.step, outside.text, stepOutside]
  rw [List.foldl_cons, opened, passes s outside, reach_zero outside]

theorem Spans.digits {text rest : List Char} {digits : List Nat}
    (read : Numeral.digits text = (digits, rest)) : Spans text rest 0 := by
  cases read
  refine .dropWhile (fun c digit => ?_) text
  have other : ∀ d, d.isDigit = false → c ≠ d := by
    rintro d notDigit rfl
    exact absurd digit (by simp [notDigit])
  exact ⟨other _ rfl, other _ rfl, other _ rfl, other _ rfl, other _ rfl⟩

theorem Spans.whole {text rest : List Char} {digits : List Nat}
    (read : Numeral.whole? text = some (digits, rest)) : Spans text rest 0 := by
  rw [Numeral.whole?] at read
  split at read
  · cases read
  · cases read
  · exact .digits (Option.some.inj read)

theorem Spans.fraction {text rest : List Char} {digits : List Nat}
    (read : Numeral.fraction? text = some (digits, rest)) : Spans text rest 0 := by
  rw [Numeral.fraction?.eq_def] at read
  split at read
  · split at read
    · cases read
    · exact (Spans.plain (by decide) _).after (.digits (Option.some.inj read))
  · cases read
    exact .refl _

theorem Spans.exponentDigits {text rest : List Char} {digits : Option (Bool × List Nat)}
    (read : Numeral.exponentDigits? text = some (digits, rest)) : Spans text rest 0 := by
  unfold Numeral.exponentDigits? at read
  simp only at read
  split at read
  · cases read
  · next readDigits =>
    cases read
    refine Spans.after ?_ (.digits readDigits)
    split
    · exact .plain (by decide) _
    · exact .plain (by decide) _
    · exact .refl _

theorem Spans.exponent {text rest : List Char} {digits : Option (Bool × List Nat)}
    (read : Numeral.exponent? text = some (digits, rest)) : Spans text rest 0 := by
  rw [Numeral.exponent?.eq_def] at read
  split at read
  · exact (Spans.plain (by decide) _).after (.exponentDigits read)
  · exact (Spans.plain (by decide) _).after (.exponentDigits read)
  · cases read
    exact .refl _

theorem Spans.numeral {text rest : List Char} {numeral : Numeral}
    (read : Numeral.read? text = some (numeral, rest)) : Spans text rest 0 := by
  rw [Numeral.read?] at read
  simp only [Option.bind_eq_bind, Option.bind_eq_some_iff] at read
  obtain ⟨⟨whole, afterWhole⟩, readWhole, ⟨fraction, afterFraction⟩, readFraction,
    ⟨exponent, afterExponent⟩, readExponent, read⟩ := read
  cases read
  have sign : Spans text (Numeral.sign text).2 0 := by
    rw [Numeral.sign.eq_def]
    split
    · exact .plain (by decide) _
    · exact .refl _
  exact sign.after ((Spans.whole readWhole).after
    ((Spans.fraction readFraction).after (.exponent readExponent)))

/-! ## Values -/

namespace Draft

mutual

/-- The largest number of objects and arrays of a draft that are inside one another. -/
def depth : Draft → Nat
  | .array items _ => depthItems items + 1
  | .object entries _ => depthEntries entries + 1
  | _ => 0

/-- The depth of the deepest item. -/
def depthItems : List Draft → Nat
  | [] => 0
  | item :: rest => max item.depth (depthItems rest)

/-- The depth of the deepest entry. -/
def depthEntries : List (Option String × Draft) → Nat
  | [] => 0
  | (_, value) :: rest => max value.depth (depthEntries rest)

end

theorem readScalar_spans {text rest : List Char} {draft : Draft}
    (read : readScalar text = (draft, some rest)) : Spans text rest draft.depth := by
  unfold readScalar at read
  split at read
  · cases read
    exact .word ['n', 'u', 'l', 'l'] (by simp [IsPlain]) _
  · cases read
    exact .word ['t', 'r', 'u', 'e'] (by simp [IsPlain]) _
  · cases read
    exact .word ['f', 'a', 'l', 's', 'e'] (by simp [IsPlain]) _
  · rw [readString] at read
    split at read
    · next string =>
      cases read
      exact .string string
    · next string =>
      cases read
      exact .string string
    · cases read
  · rw [readNumber] at read
    split at read
    · next numeral =>
      split at read <;> cases read <;> exact .numeral numeral
    · cases read

/-- The reader with so much fuel passes over as many levels as it reads. -/
structure ReadsSpans (fuel : Nat) : Prop where
  value : ∀ {text draft rest}, readValue fuel text = (draft, some rest) →
    Spans text rest draft.depth
  items : ∀ {text items rest}, readItems fuel text = (items, some rest) →
    Spans text (']' :: rest) (depthItems items)
  entries : ∀ {text entries rest}, readEntries fuel text = (entries, some rest) →
    Spans text ('}' :: rest) (depthEntries entries)

variable {fuel : Nat} {text rest : List Char}

theorem readValue_spans (ih : ReadsSpans fuel) {draft : Draft}
    (read : readValue (fuel + 1) text = (draft, some rest)) : Spans text rest draft.depth := by
  rw [readValue] at read
  refine (Spans.blanks text).after ?_
  split at read
  · next inner is =>
    rw [is]
    have skipped := Spans.blanks inner
    split at read
    · next closed =>
      cases read
      exact .enclosed (.inr rfl) (.inr rfl) (closed ▸ skipped)
    · obtain ⟨rfl, after⟩ := Prod.mk.inj read
      exact .enclosed (.inr rfl) (.inr rfl) (skipped.after (ih.items (Prod.ext rfl after)))
  · next inner is =>
    rw [is]
    have skipped := Spans.blanks inner
    split at read
    · next closed =>
      cases read
      exact .enclosed (.inl rfl) (.inl rfl) (closed ▸ skipped)
    · obtain ⟨rfl, after⟩ := Prod.mk.inj read
      exact .enclosed (.inl rfl) (.inl rfl) (skipped.after (ih.entries (Prod.ext rfl after)))
  · exact readScalar_spans read

theorem readItems_spans (ih : ReadsSpans fuel) {items : List Draft}
    (read : readItems (fuel + 1) text = (items, some rest)) :
    Spans text (']' :: rest) (depthItems items) := by
  rw [readItems] at read
  split at read
  · cases read
  · next item behind readItem =>
    have first := ih.value readItem
    have skipped := Spans.blanks behind
    split at read
    · next others is =>
      obtain ⟨rfl, after⟩ := Prod.mk.inj read
      have remaining := ih.items (Prod.ext rfl after)
      rw [is] at skipped
      exact first.trans (skipped.after ((Spans.plain (by decide) others).after remaining))
    · next others is =>
      cases read
      exact first.trans (is ▸ skipped)
    · cases read

theorem readEntries_spans (ih : ReadsSpans fuel) {entries : List (Option String × Draft)}
    (read : readEntries (fuel + 1) text = (entries, some rest)) :
    Spans text ('}' :: rest) (depthEntries entries) := by
  rw [readEntries] at read
  refine (Spans.blanks text).after ?_
  split at read
  · next start is =>
    rw [is]
    split at read
    · cases read
    · next key afterKey readKey =>
      refine (Spans.string readKey).after ((Spans.blanks afterKey).after ?_)
      split at read
      · next valueText is =>
        rw [is]
        refine (Spans.plain (by decide) valueText).after ?_
        split at read
        · cases read
        · next value behind readValue =>
          have first := ih.value readValue
          have skipped := Spans.blanks behind
          split at read
          · next others is =>
            obtain ⟨rfl, after⟩ := Prod.mk.inj read
            have remaining := ih.entries (Prod.ext rfl after)
            rw [is] at skipped
            exact first.trans (skipped.after ((Spans.plain (by decide) others).after remaining))
          · next others is =>
            cases read
            exact first.trans (is ▸ skipped)
          · cases read
      · cases read
  · cases read

theorem readsSpans (fuel : Nat) : ReadsSpans fuel := by
  induction fuel with
  | zero => exact ⟨nofun, nofun, nofun⟩
  | succ fuel ih => exact ⟨readValue_spans ih, readItems_spans ih, readEntries_spans ih⟩

/-- **The measure of a text that starts with a value and ends after it is the depth of the
value**, blanks around it aside. -/
theorem nestingDepth_read {text rest : List Char} {draft : Draft}
    (read : Draft.read text = (draft, some rest)) (ended : skipBlanks rest = []) :
    nestingDepth text = draft.depth := by
  obtain ⟨front, rfl, passes⟩ :=
    ((readsSpans _).value read).before (ended ▸ Spans.blanks rest)
  rw [nestingDepth, List.append_nil, passes {} ⟨rfl, rfl, Nat.le_refl _⟩]
  simp [Scan.reach]

theorem depthItems_ofItems {items : List Json}
    (each : ∀ item ∈ items, (ofJson item).depth = item.depth) :
    depthItems (ofItems items) = Json.depthItems items := by
  induction items with
  | nil => rfl
  | cons item rest ih =>
    rw [List.forall_mem_cons] at each
    rw [ofItems, depthItems, Json.depthItems, each.1, ih each.2]

theorem depthEntries_ofEntries {entries : List (String × Json)}
    (each : ∀ value ∈ entries.map Prod.snd, (ofJson value).depth = value.depth) :
    depthEntries (ofEntries entries) = Json.depthEntries entries := by
  induction entries with
  | nil => rfl
  | cons entry rest ih =>
    obtain ⟨key, value⟩ := entry
    rw [List.map_cons, List.forall_mem_cons] at each
    rw [ofEntries, depthEntries, Json.depthEntries, each.1, ih each.2]

theorem depth_ofJson (j : Json) : (ofJson j).depth = j.depth := by
  induction j using parts_induction with
  | step j ih =>
    cases j with
    | array items => exact congrArg (· + 1) (depthItems_ofItems ih)
    | object entries => exact congrArg (· + 1) (depthEntries_ofEntries ih)
    | null | bool | number | string => rfl

end Draft

theorem WellFormed.unique {text : List Char} {draft draft' : Draft}
    (wellFormed : WellFormed text draft) (wellFormed' : WellFormed text draft') :
    draft = draft' := by
  obtain ⟨rest, read, -⟩ := wellFormed
  obtain ⟨rest', read', -⟩ := wellFormed'
  exact (Prod.mk.inj (read.symm.trans read')).1

/-- **The measure of a well-formed text is the depth of its draft.** -/
theorem WellFormed.nestingDepth {text : List Char} {draft : Draft}
    (wellFormed : WellFormed text draft) : nestingDepth text = draft.depth := by
  obtain ⟨rest, read, ended⟩ := wellFormed
  exact Draft.nestingDepth_read read ended

/-- **The measure of a well-formed text is the depth of its value.** -/
theorem nestingDepth_of_parse? {text : List Char} {j : Json} (parsed : parse? text = some j) :
    nestingDepth text = j.depth := by
  obtain ⟨rest, read, ended⟩ := read_of_parse? parsed
  rw [Draft.nestingDepth_read read ended, Draft.depth_ofJson]

/-! ## Bounds -/

/-- A character opens at most one level. -/
theorem step_bounds (s : Scan) (c : Char) :
    (s.step c).depth ≤ s.depth + 1 ∧ (s.step c).deepest ≤ max s.deepest (s.depth + 1) := by
  unfold Scan.step stepString stepOutside
  (repeat' split) <;> constructor <;> (try simp only) <;> omega

theorem foldl_step_deepest (text : List Char) (s : Scan) :
    (text.foldl Scan.step s).deepest ≤ max s.deepest (s.depth + text.length) := by
  induction text generalizing s with
  | nil => exact Nat.le_max_left ..
  | cons c text ih =>
    have bounds := step_bounds s c
    have later := ih (s.step c)
    rw [List.foldl_cons, List.length_cons]
    omega

/-- The limit on the nesting of a text, by one formula: what stops at the largest word on the way
stops there in the end. -/
theorem nestingLimit_eq (levels : Nat) :
    nestingLimit levels = min (4 * (levels + 1) + 8) maxWord := by
  rw [nestingLimit, addLevels, timesLevels, addLevels, levelsPerExpr, levelsAboveExpr]
  omega

/-- A text has at least as many characters as levels. -/
theorem nestingDepth_le_length (text : List Char) : nestingDepth text ≤ text.length := by
  have bound := foldl_step_deepest text {}
  rw [nestingDepth]
  simpa using bound

end Json

end SelfTyped
