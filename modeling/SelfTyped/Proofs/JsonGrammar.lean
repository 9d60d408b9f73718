/-
SelfTyped.Proofs.JsonGrammar — the reader accepts what the grammar derives.

In one direction the text that a reading function passes over is derived, part
by part (`Accepts`).  In the other direction a derived text is read whatever
stands behind it (`Reads`), which cannot be said of the text alone: a
derivation takes the blanks behind a value for a part of the value, where the
reader leaves them.

Together they say that well-formed texts are those of the grammar
(`wellFormed_iff`), and that a text has a value if and only if the grammar
derives it with the draft of the value (`parse?_eq_some_iff`).  Literals are
dealt with in `LiteralGrammar`.
-/
import Mathlib.Data.List.DropRight
import SelfTyped.Proofs.JsonText
import SelfTyped.Proofs.LiteralGrammar

namespace SelfTyped

namespace Json

namespace Grammar

variable {text blanks front rest : List Char} {c : Char}

/-! ## Blanks -/

theorem blank_nil : Blank [] :=
  List.forall_mem_nil _

theorem exists_blanks (text : List Char) :
    ∃ blanks, Blank blanks ∧ text = blanks ++ skipBlanks text :=
  ⟨text.takeWhile isBlank, fun _ mem => List.mem_takeWhile_imp mem,
    List.takeWhile_append_dropWhile.symm⟩

theorem Blank.skip (blank : Blank blanks) (rest : List Char) :
    skipBlanks (blanks ++ rest) = skipBlanks rest :=
  List.dropWhile_append_of_pos blank

theorem blank_of_skipBlanks (ended : skipBlanks text = []) : Blank text := by
  obtain ⟨blanks, blank, is⟩ := exists_blanks text
  rw [ended, List.append_nil] at is
  exact is ▸ blank

/-! ## Values that are read -/

open Draft (readValue readItems readEntries readScalar)

theorem Value.before {draft : Draft} (blank : Blank blanks) (value : Value text draft) :
    Value (blanks ++ text) draft := by
  have padded : Value (blanks ++ (text ++ [])) draft := .padded blank value blank_nil
  rwa [List.append_nil] at padded

theorem Value.after {draft : Draft} (value : Value text draft) (blank : Blank blanks) :
    Value (text ++ blanks) draft := by
  have padded : Value ([] ++ (text ++ blanks)) draft := .padded blank_nil value blank
  exact padded

theorem separated_singleton (text : List Char) : separated [text] = text :=
  List.intercalate_singleton

theorem separated_cons {texts : List (List Char)} (nonempty : texts ≠ []) (text : List Char) :
    separated (text :: texts) = text ++ ',' :: separated texts := by
  rw [separated, List.intercalate_cons_of_ne_nil nonempty, List.append_assoc, List.singleton_append]
  rfl

/-- The first of separated texts stands in front. -/
theorem separated_front (text : List Char) (texts : List (List Char)) :
    ∃ more, separated (text :: texts) = text ++ more := by
  cases texts with
  | nil => exact ⟨[], by rw [separated_singleton, List.append_nil]⟩
  | cons next texts => exact ⟨_, separated_cons (List.cons_ne_nil _ _) text⟩

theorem exists_scalar {draft : Draft} (read : readScalar text = (draft, some rest)) :
    ∃ front, Scalar front draft ∧ text = front ++ rest := by
  unfold readScalar at read
  split at read
  · cases read
    exact ⟨_, .nullWord, rfl⟩
  · cases read
    exact ⟨_, .trueWord, rfl⟩
  · cases read
    exact ⟨_, .falseWord, rfl⟩
  · rw [Draft.readString] at read
    split at read
    · next literal =>
      cases read
      obtain ⟨front, isLiteral, rfl⟩ := exists_literal literal
      exact ⟨_, .string isLiteral, rfl⟩
    · next literal =>
      cases read
      obtain ⟨front, isLiteral, rfl⟩ := exists_literal literal
      exact ⟨_, .string isLiteral, rfl⟩
    · cases read
  · rw [Draft.readNumber] at read
    split at read
    · next literal =>
      obtain ⟨front, isNumber, rfl⟩ := exists_number literal
      have scalar := Scalar.number isNumber
      split at read
      · next value is =>
        cases read
        rw [is] at scalar
        exact ⟨front, scalar, rfl⟩
      · next is =>
        cases read
        rw [is] at scalar
        exact ⟨front, scalar, rfl⟩
    · cases read

/-- The text is that of a value, and goes on with the rest. -/
def StartsValue (text : List Char) (draft : Draft) (rest : List Char) : Prop :=
  ∃ front, Value front draft ∧ text = front ++ rest

/-- The text is that of the items of an array and its closing bracket, and goes on with the rest. -/
def StartsItems (text : List Char) (items : List Draft) (rest : List Char) : Prop :=
  ∃ parts : List (List Char × Draft), parts ≠ [] ∧ (∀ part ∈ parts, Value part.1 part.2) ∧
    items = parts.map Prod.snd ∧ text = separated (parts.map Prod.fst) ++ ']' :: rest

/-- The text is that of the entries of an object and its closing brace, and goes on with the
rest. -/
def StartsEntries (text : List Char) (entries : List (Option String × Draft))
    (rest : List Char) : Prop :=
  ∃ parts : List Entry, parts ≠ [] ∧ (∀ part ∈ parts, Key part.keyText part.key) ∧
    (∀ part ∈ parts, Value part.valueText part.value) ∧
    entries = parts.map Entry.draft ∧ text = separated (parts.map Entry.text) ++ '\x7d' :: rest

/-- The reader with so much fuel accepts what the grammar derives only. -/
structure Accepts (fuel : Nat) : Prop where
  value : ∀ {text draft rest}, readValue fuel text = (draft, some rest) →
    StartsValue text draft rest
  items : ∀ {text items rest}, readItems fuel text = (items, some rest) →
    StartsItems text items rest
  entries : ∀ {text entries rest}, readEntries fuel text = (entries, some rest) →
    StartsEntries text entries rest

variable {fuel : Nat}

theorem skipBlanks_skipBlanks (text : List Char) :
    skipBlanks (skipBlanks text) = skipBlanks text := by
  rw [skipBlanks, skipBlanks, List.dropWhile_idempotent]

/-- Blanks in front of a value do not matter. -/
theorem readValue_skipBlanks (fuel : Nat) (text : List Char) :
    readValue fuel (skipBlanks text) = readValue fuel text := by
  cases fuel with
  | zero => rfl
  | succ fuel => rw [readValue, readValue, skipBlanks_skipBlanks]

theorem readItems_skipBlanks (fuel : Nat) (text : List Char) :
    readItems fuel (skipBlanks text) = readItems fuel text := by
  cases fuel with
  | zero => rfl
  | succ fuel => rw [readItems, readItems, readValue_skipBlanks]

theorem readEntries_skipBlanks (fuel : Nat) (text : List Char) :
    readEntries fuel (skipBlanks text) = readEntries fuel text := by
  cases fuel with
  | zero => rfl
  | succ fuel => rw [readEntries, readEntries, skipBlanks_skipBlanks]

theorem accepts_value (ih : Accepts fuel) {draft : Draft}
    (read : readValue (fuel + 1) text = (draft, some rest)) : StartsValue text draft rest := by
  rw [readValue] at read
  obtain ⟨blanks, blank, is⟩ := exists_blanks text
  -- The blanks in front are part of the value.
  suffices inner : StartsValue (skipBlanks text) draft rest by
    obtain ⟨front, value, behind⟩ := inner
    exact ⟨blanks ++ front, value.before blank, by rw [is, behind, List.append_assoc]⟩
  split at read
  · next inner is =>
    rw [is]
    split at read
    · next closed =>
      cases read
      obtain ⟨blanks, blank, is⟩ := exists_blanks inner
      exact ⟨_, .emptyArray blank, by rw [is, closed]; simp⟩
    · rw [readItems_skipBlanks] at read
      rcases readInner : readItems fuel inner with ⟨items, after⟩
      rw [readInner] at read
      cases read
      obtain ⟨parts, nonempty, each, rfl, rfl⟩ := ih.items readInner
      exact ⟨_, .array nonempty each, by simp⟩
  · next inner is =>
    rw [is]
    split at read
    · next closed =>
      cases read
      obtain ⟨blanks, blank, is⟩ := exists_blanks inner
      exact ⟨_, .emptyObject blank, by rw [is, closed]; simp⟩
    · rw [readEntries_skipBlanks] at read
      rcases readInner : readEntries fuel inner with ⟨entries, after⟩
      rw [readInner] at read
      cases read
      obtain ⟨parts, nonempty, keys, each, rfl, rfl⟩ := ih.entries readInner
      exact ⟨_, .object nonempty keys each, by simp⟩
  · obtain ⟨front, scalar, is⟩ := exists_scalar read
    exact ⟨front, .scalar scalar, is⟩

theorem accepts_items (ih : Accepts fuel) {items : List Draft}
    (read : readItems (fuel + 1) text = (items, some rest)) : StartsItems text items rest := by
  rw [readItems] at read
  split at read
  · cases read
  · next item behind readItem =>
    obtain ⟨front, value, rfl⟩ := ih.value readItem
    obtain ⟨blanks, blank, skipped⟩ := exists_blanks behind
    split at read
    · next others is =>
      rcases readOthers : readItems fuel others with ⟨items, after⟩
      rw [readOthers] at read
      cases read
      obtain ⟨parts, nonempty, each, rfl, rfl⟩ := ih.items readOthers
      refine ⟨(front ++ blanks, item) :: parts, List.cons_ne_nil _ _,
        List.forall_mem_cons.mpr ⟨value.after blank, each⟩, rfl, ?_⟩
      rw [skipped, is, List.map_cons, separated_cons (mt List.map_eq_nil_iff.mp nonempty)]
      simp
    · next is =>
      cases read
      refine ⟨[(front ++ blanks, item)], List.cons_ne_nil _ _,
        List.forall_mem_singleton.mpr (value.after blank), rfl, ?_⟩
      rw [skipped, is, List.map_singleton, separated_singleton]
      simp
    · cases read

theorem accepts_entries (ih : Accepts fuel) {entries : List (Option String × Draft)}
    (read : readEntries (fuel + 1) text = (entries, some rest)) :
    StartsEntries text entries rest := by
  rw [readEntries] at read
  obtain ⟨blanks, blank, is⟩ := exists_blanks text
  split at read
  · next start is' =>
    rw [is'] at is
    split at read
    · cases read
    · next key afterKey readKey =>
      obtain ⟨literal, isLiteral, rfl⟩ := exists_literal readKey
      obtain ⟨blanks', blank', skipped⟩ := exists_blanks afterKey
      split at read
      · next valueText colon =>
        have isKey := Key.padded blank isLiteral blank'
        split at read
        · cases read
        · next value behind readValue =>
          obtain ⟨front, isValue, rfl⟩ := ih.value readValue
          obtain ⟨blanks'', blank'', skipped'⟩ := exists_blanks behind
          split at read
          · next others comma =>
            rcases readOthers : readEntries fuel others with ⟨entries, after⟩
            rw [readOthers] at read
            cases read
            obtain ⟨parts, nonempty, keys, each, rfl, rfl⟩ := ih.entries readOthers
            refine ⟨⟨_, key, front ++ blanks'', value⟩ :: parts, List.cons_ne_nil _ _,
              List.forall_mem_cons.mpr ⟨isKey, keys⟩,
              List.forall_mem_cons.mpr ⟨isValue.after blank'', each⟩, rfl, ?_⟩
            rw [is, skipped, colon, skipped', comma, List.map_cons,
              separated_cons (mt List.map_eq_nil_iff.mp nonempty)]
            simp [Entry.text]
          · next closing =>
            cases read
            refine ⟨[⟨_, key, front ++ blanks'', value⟩], List.cons_ne_nil _ _,
              List.forall_mem_singleton.mpr isKey,
              List.forall_mem_singleton.mpr (isValue.after blank''), rfl, ?_⟩
            rw [is, skipped, colon, skipped', closing, List.map_singleton, separated_singleton]
            simp [Entry.text]
          · cases read
      · cases read
  · cases read

theorem accepts (fuel : Nat) : Accepts fuel := by
  induction fuel with
  | zero => exact ⟨nofun, nofun, nofun⟩
  | succ fuel ih => exact ⟨accepts_value ih, accepts_items ih, accepts_entries ih⟩

/-! ## Values that are derived -/

/-- What may stand behind a value. -/
def Stops (rest : List Char) : Prop :=
  ∀ c ∈ rest.head?, isBlank c = true ∨ c = ',' ∨ c = ']' ∨ c = '\x7d'

theorem Stops.breaks (stops : Stops rest) : Breaks rest := by
  intro c mem
  rcases stops c mem with blank | rfl | rfl | rfl
  · simp only [isBlank, Bool.or_eq_true, beq_iff_eq] at blank
    rcases blank with ((rfl | rfl) | rfl) | rfl <;> decide
  · decide
  · decide
  · decide

theorem Blank.stops (blank : Blank blanks) (stops : Stops rest) : Stops (blanks ++ rest) := by
  cases blanks with
  | nil => exact stops
  | cons c blanks =>
    rintro _ ⟨⟩
    exact .inl (blank c List.mem_cons_self)

theorem Number.head {n : Numeral} (number : Number text n) :
    ∃ c tail, text = c :: tail ∧ (c = '-' ∨ c.isDigit = true) := by
  obtain ⟨negative, digits, fraction, exponent⟩ := n
  cases number with
  | parts sign whole =>
    cases sign with
    | minus => exact ⟨'-', _, rfl, .inl rfl⟩
    | none =>
      cases whole with
      | digits isDigits =>
        obtain ⟨c, tail, rfl, digit⟩ := isDigits.head
        exact ⟨c, _, rfl, .inr digit⟩

/-- A scalar starts like a scalar. -/
theorem Scalar.head {draft : Draft} (scalar : Scalar text draft) :
    ∃ c tail, text = c :: tail ∧ isBlank c = false ∧ c ≠ '[' ∧ c ≠ ']' ∧ c ≠ '\x7b' := by
  cases scalar with
  | nullWord | trueWord | falseWord => exact ⟨_, _, rfl, by decide⟩
  | string literal =>
    cases literal with
    | quoted => exact ⟨_, _, rfl, by decide⟩
  | number literal =>
    obtain ⟨c, tail, rfl, rfl | digit⟩ := literal.head
    · exact ⟨_, _, rfl, by decide⟩
    · obtain ⟨notBlank, notEnd⟩ := isBlank_digit digit
      refine ⟨c, tail, rfl, notBlank, ?_, notEnd, ?_⟩ <;> (rintro rfl; cases digit)

theorem readScalar_append {draft : Draft} (scalar : Scalar text draft) (breaks : Breaks rest) :
    readScalar (text ++ rest) = (draft, some rest) := by
  cases scalar with
  | nullWord | trueWord | falseWord => rfl
  | @string text value literal =>
    obtain ⟨front, rfl⟩ : ∃ front, text = '"' :: front := by
      cases literal with
      | quoted => exact ⟨_, rfl⟩
    rw [List.cons_append, readScalar, Draft.readString, readLiteral_append literal]
    cases value <;> rfl
  | @number text n literal =>
    have number : Draft.readNumber (text ++ rest) = (ofNumber n.value?, some rest) := by
      simp only [Draft.readNumber, read?_append literal breaks]
      cases n.value? <;> rfl
    obtain ⟨c, tail, rfl, start⟩ := literal.head
    have other : ∀ d, d ≠ '-' → d.isDigit = false → c ≠ d := by
      rintro d notSign notDigit rfl
      rcases start with sign | digit
      · exact notSign sign
      · exact absurd digit (by simp [notDigit])
    rw [List.cons_append] at number ⊢
    unfold readScalar
    split
    · next is => exact absurd (List.cons.inj is).1 (other _ (by decide) rfl)
    · next is => exact absurd (List.cons.inj is).1 (other _ (by decide) rfl)
    · next is => exact absurd (List.cons.inj is).1 (other _ (by decide) rfl)
    · next is => exact absurd (List.cons.inj is).1 (other _ (by decide) rfl)
    · exact number

/-- A value is read, blanks after it aside, whatever stands behind it. -/
def Reads (text : List Char) (draft : Draft) : Prop :=
  ∀ fuel rest, Stops rest → text.length ≤ fuel →
    ∃ blanks, Blank blanks ∧ readValue fuel (text ++ rest) = (draft, some (blanks ++ rest))

/-- A value does not look like the end of an array. -/
theorem Value.head {draft : Draft} (value : Value text draft) :
    ∀ rest, ∃ c tail, skipBlanks (text ++ rest) = c :: tail ∧ c ≠ ']' := by
  induction value with
  | scalar scalar =>
    obtain ⟨c, tail, rfl, notBlank, -, notEnd, -⟩ := scalar.head
    exact fun rest => ⟨c, _, skipBlanks_cons notBlank _, notEnd⟩
  | padded blank _ _ ih =>
    intro rest
    rw [List.append_assoc, blank.skip, List.append_assoc]
    exact ih _
  | emptyArray | array => exact fun rest => ⟨'[', _, skipBlanks_cons rfl _, by decide⟩
  | emptyObject | object => exact fun rest => ⟨'\x7b', _, skipBlanks_cons rfl _, by decide⟩

theorem reads_scalar {draft : Draft} (scalar : Scalar text draft) : Reads text draft := by
  intro fuel rest stops enough
  obtain ⟨c, tail, rfl, notBlank, notArray, -, notObject⟩ := scalar.head
  obtain _ | fuel := fuel
  · cases enough
  refine ⟨[], blank_nil, ?_⟩
  rw [List.cons_append, readValue_scalar notBlank notArray notObject]
  exact readScalar_append scalar stops.breaks

theorem reads_padded {before after : List Char} {draft : Draft} (blank : Blank before)
    (reads : Reads text draft) (blank' : Blank after) :
    Reads (before ++ (text ++ after)) draft := by
  intro fuel rest stops enough
  simp only [List.length_append] at enough
  obtain ⟨blanks, blank'', read⟩ := reads fuel (after ++ rest) (blank'.stops stops) (by omega)
  refine ⟨blanks ++ after, ?_, ?_⟩
  · exact fun c mem => (List.mem_append.mp mem).elim (blank'' c) (blank' c)
  · rw [← readValue_skipBlanks, List.append_assoc, blank.skip, readValue_skipBlanks,
      List.append_assoc, read, List.append_assoc]

theorem stops_cons (delimiter : c = ',' ∨ c = ']' ∨ c = '\x7d') (rest : List Char) :
    Stops (c :: rest) := by
  rintro _ ⟨⟩
  exact .inr delimiter

/-- The first item is read, and what stands behind it decides whether the array goes on. -/
theorem readItems_item {draft : Draft} (reads : Reads text draft) {fuel : Nat}
    (enough : text.length ≤ fuel) (delimiter : c = ',' ∨ c = ']') :
    readItems (fuel + 1) (text ++ c :: rest) =
      if c = ',' then (draft :: (readItems fuel rest).1, (readItems fuel rest).2)
      else ([draft], some rest) := by
  obtain ⟨blanks, blank, read⟩ := reads fuel (c :: rest)
    (stops_cons (delimiter.imp_right .inl) rest) enough
  rw [readItems, read]
  rcases delimiter with rfl | rfl
  · simp only [blank.skip, skipBlanks_cons (c := ',') rfl, if_true]
  · simp only [blank.skip, skipBlanks_cons (c := ']') rfl, Char.reduceEq, if_false]

theorem reads_items {items : List (List Char × Draft)} (nonempty : items ≠ [])
    (each : ∀ item ∈ items, Reads item.1 item.2) (fuel : Nat) (rest : List Char)
    (enough : (separated (items.map Prod.fst)).length < fuel) :
    readItems fuel (separated (items.map Prod.fst) ++ ']' :: rest) =
      (items.map Prod.snd, some rest) := by
  induction items generalizing fuel with
  | nil => exact absurd rfl nonempty
  | cons item items ih =>
    obtain ⟨reads, others⟩ := List.forall_mem_cons.mp each
    obtain _ | fuel := fuel
    · cases enough
    cases items with
    | nil =>
      rw [List.map_singleton, separated_singleton] at enough ⊢
      exact readItems_item reads (by omega) (.inr rfl)
    | cons next items =>
      rw [List.map_cons, separated_cons (by simp)] at enough ⊢
      rw [List.length_append, List.length_cons] at enough
      rw [List.append_assoc, List.cons_append, readItems_item reads (by omega) (.inl rfl),
        if_pos rfl, ih (List.cons_ne_nil _ _) others fuel (by omega)]
      rfl

/-- A key is a literal with blanks around it. -/
theorem Key.shape {key : Option String} (isKey : Key text key) : ∃ before front after,
    Blank before ∧ Literal ('"' :: front) key ∧ Blank after ∧
      text = before ++ ('"' :: (front ++ after)) := by
  cases isKey with
  | padded blank literal blank' =>
    cases literal with
    | quoted pieces => exact ⟨_, _, _, blank, .quoted pieces, blank', rfl⟩

/-- The first entry is read, and what stands behind it decides whether the object goes on. -/
theorem readEntries_entry {entry : Entry} (isKey : Key entry.keyText entry.key)
    (reads : Reads entry.valueText entry.value) {fuel : Nat}
    (enough : entry.valueText.length ≤ fuel) (delimiter : c = ',' ∨ c = '\x7d') :
    readEntries (fuel + 1) (entry.text ++ c :: rest) =
      if c = ',' then (entry.draft :: (readEntries fuel rest).1, (readEntries fuel rest).2)
      else ([entry.draft], some rest) := by
  obtain ⟨before, front, after, blank, literal, blank', is⟩ := isKey.shape
  obtain ⟨blanks, blank'', read⟩ := reads fuel (c :: rest)
    (stops_cons (delimiter.imp_right .inr) rest) enough
  rw [Entry.text, is, Entry.draft]
  simp only [List.append_assoc, List.cons_append, readEntries, blank.skip,
    skipBlanks_cons (c := '"') rfl, readLiteral_append literal, blank'.skip,
    skipBlanks_cons (c := ':') rfl, read, blank''.skip]
  rcases delimiter with rfl | rfl
  · simp only [skipBlanks_cons (c := ',') rfl, if_true]
  · simp only [skipBlanks_cons (c := '\x7d') rfl, Char.reduceEq, if_false]

theorem reads_entries {entries : List Entry} (nonempty : entries ≠ [])
    (keys : ∀ entry ∈ entries, Key entry.keyText entry.key)
    (each : ∀ entry ∈ entries, Reads entry.valueText entry.value) (fuel : Nat) (rest : List Char)
    (enough : (separated (entries.map Entry.text)).length < fuel) :
    readEntries fuel (separated (entries.map Entry.text) ++ '\x7d' :: rest) =
      (entries.map Entry.draft, some rest) := by
  induction entries generalizing fuel with
  | nil => exact absurd rfl nonempty
  | cons entry entries ih =>
    obtain ⟨isKey, keys⟩ := List.forall_mem_cons.mp keys
    obtain ⟨reads, others⟩ := List.forall_mem_cons.mp each
    obtain _ | fuel := fuel
    · cases enough
    have shorter : entry.valueText.length ≤ entry.text.length := by
      rw [Entry.text, List.length_append, List.length_cons]
      omega
    cases entries with
    | nil =>
      rw [List.map_singleton, separated_singleton] at enough ⊢
      exact readEntries_entry isKey reads (by omega) (.inr rfl)
    | cons next entries =>
      rw [List.map_cons, separated_cons (by simp)] at enough ⊢
      rw [List.length_append, List.length_cons] at enough
      rw [List.append_assoc, List.cons_append,
        readEntries_entry isKey reads (by omega) (.inl rfl), if_pos rfl,
        ih (List.cons_ne_nil _ _) keys others fuel (by omega)]
      rfl

theorem reads_emptyArray (blank : Blank blanks) :
    Reads ('[' :: (blanks ++ [']'])) (.array [] true) := by
  intro fuel rest stops enough
  obtain _ | fuel := fuel
  · cases enough
  refine ⟨[], blank_nil, ?_⟩
  rw [readValue, List.cons_append, skipBlanks_cons rfl]
  simp only [List.append_assoc, blank.skip]
  rfl

theorem reads_emptyObject (blank : Blank blanks) :
    Reads ('\x7b' :: (blanks ++ ['\x7d'])) (.object [] true) := by
  intro fuel rest stops enough
  obtain _ | fuel := fuel
  · cases enough
  refine ⟨[], blank_nil, ?_⟩
  rw [readValue, List.cons_append, skipBlanks_cons rfl]
  simp only [List.append_assoc, blank.skip]
  rfl

/-- An array is read by its items unless it looks like an empty one. -/
theorem readValue_array {fuel : Nat} {items : List Draft}
    (notEmpty : ∀ tail, skipBlanks text ≠ ']' :: tail)
    (read : readItems fuel text = (items, some rest)) :
    readValue (fuel + 1) ('[' :: text) = (.array items true, some rest) := by
  rw [← readItems_skipBlanks] at read
  rw [readValue, skipBlanks_cons rfl]
  simp only [read, Option.isSome_some]

/-- An object is read by its entries unless it looks like an empty one. -/
theorem readValue_object {fuel : Nat} {entries : List (Option String × Draft)}
    (notEmpty : ∀ tail, skipBlanks text ≠ '\x7d' :: tail)
    (read : readEntries fuel text = (entries, some rest)) :
    readValue (fuel + 1) ('\x7b' :: text) = (.object entries true, some rest) := by
  rw [← readEntries_skipBlanks] at read
  rw [readValue, skipBlanks_cons rfl]
  simp only [read, Option.isSome_some]

theorem reads_array {items : List (List Char × Draft)} (nonempty : items ≠ [])
    (values : ∀ item ∈ items, Value item.1 item.2) (each : ∀ item ∈ items, Reads item.1 item.2) :
    Reads ('[' :: (separated (items.map Prod.fst) ++ [']']))
      (.array (items.map Prod.snd) true) := by
  intro fuel rest stops enough
  obtain _ | fuel := fuel
  · cases enough
  have read := reads_items nonempty each fuel rest (by simp at enough; omega)
  have first : ∀ tail,
      skipBlanks (separated (items.map Prod.fst) ++ ']' :: rest) ≠ ']' :: tail := by
    cases items with
    | nil => exact absurd rfl nonempty
    | cons item items =>
      obtain ⟨more, is⟩ := separated_front item.1 (items.map Prod.fst)
      obtain ⟨c, tail, head, notEnd⟩ :=
        (List.forall_mem_cons.mp values).1.head (more ++ ']' :: rest)
      rw [List.map_cons, is, List.append_assoc, head]
      exact fun _ is => notEnd (List.cons.inj is).1
  refine ⟨[], blank_nil, ?_⟩
  rw [List.cons_append, List.append_assoc]
  exact readValue_array first read

theorem reads_object {entries : List Entry} (nonempty : entries ≠ [])
    (keys : ∀ entry ∈ entries, Key entry.keyText entry.key)
    (each : ∀ entry ∈ entries, Reads entry.valueText entry.value) :
    Reads ('\x7b' :: (separated (entries.map Entry.text) ++ ['\x7d']))
      (.object (entries.map Entry.draft) true) := by
  intro fuel rest stops enough
  obtain _ | fuel := fuel
  · cases enough
  have read := reads_entries nonempty keys each fuel rest (by simp at enough; omega)
  have first : ∀ tail,
      skipBlanks (separated (entries.map Entry.text) ++ '\x7d' :: rest) ≠ '\x7d' :: tail := by
    cases entries with
    | nil => exact absurd rfl nonempty
    | cons entry entries =>
      obtain ⟨more, is⟩ := separated_front entry.text (entries.map Entry.text)
      obtain ⟨before, front, after, blank, -, -, key⟩ := (List.forall_mem_cons.mp keys).1.shape
      rw [List.map_cons, is, Entry.text, key, List.append_assoc, List.append_assoc,
        List.append_assoc, blank.skip, List.cons_append, skipBlanks_cons rfl]
      exact fun _ is => absurd (List.cons.inj is).1 (by decide)
  refine ⟨[], blank_nil, ?_⟩
  rw [List.cons_append, List.append_assoc]
  exact readValue_object first read

/-- **What the grammar derives is read.** -/
theorem Value.reads {draft : Draft} (value : Value text draft) : Reads text draft := by
  induction value with
  | scalar scalar => exact reads_scalar scalar
  | padded blank _ blank' ih => exact reads_padded blank ih blank'
  | emptyArray blank => exact reads_emptyArray blank
  | array nonempty each ih => exact reads_array nonempty each ih
  | emptyObject blank => exact reads_emptyObject blank
  | object nonempty keys _ ih => exact reads_object nonempty keys ih

end Grammar

/-- **A text is well-formed if and only if the grammar derives it.** -/
theorem wellFormed_iff {text : List Char} {draft : Draft} :
    WellFormed text draft ↔ Grammar.Value text draft := by
  constructor
  · rintro ⟨rest, read, ended⟩
    obtain ⟨front, value, rfl⟩ := (Grammar.accepts _).value read
    exact value.after (Grammar.blank_of_skipBlanks ended)
  · intro value
    obtain ⟨blanks, blank, read⟩ := value.reads (Draft.fuelFor text) [] nofun (by
      rw [Draft.fuelFor]
      omega)
    rw [List.append_nil] at read
    exact ⟨_, read, by rw [blank.skip]; rfl⟩

/-- **A text has a value if and only if the grammar derives it with the value.** -/
theorem parse?_eq_some_iff {text : List Char} {j : Json} :
    parse? text = some j ↔ Grammar.Value text (.ofJson j) := by
  rw [← wellFormed_iff]
  constructor
  · exact read_of_parse?
  · rintro ⟨rest, read, ended⟩
    rw [parse?, read]
    simp only [ended, List.isEmpty_nil, if_true, Draft.toJson?_ofJson]

end Json

end SelfTyped
