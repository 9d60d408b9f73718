/-
SelfTyped.Proofs.JsonText — reading undoes writing, for JSON values.

A value whose numbers are integers of 64 bits (`Exact`) is read back from its
text as a draft without faults (`Draft.read_render`).  Such a draft is the
draft of one value, and of no other (`Draft.toJson?_ofJson`,
`Draft.eq_ofJson`), so a text has the value that it was written for
(`parse?_render`) and a text with a value is read as the draft of that value
(`read_of_parse?`).

Values are lists of values inside values, so statements about them are
proved by one induction over parts (`parts_induction`).  Its step has two
lemmas of its own, `readItems_render` and `readEntries_render`, which go along
the list.  As a value is read with as many steps as its text has characters,
the fuel that a text comes with is enough.
-/
import SelfTyped.Proofs.Numerals
import SelfTyped.Proofs.StringLiterals

namespace SelfTyped

namespace Json

/-! ## Parts -/

/-- The values directly inside a value. -/
def parts : Json → List Json
  | .array items => items
  | .object entries => entries.map Prod.snd
  | _ => []

theorem sizeOf_part_lt {j part : Json} (mem : part ∈ j.parts) : sizeOf part < sizeOf j := by
  cases j with
  | array items =>
    have smaller : sizeOf part < sizeOf items := List.sizeOf_lt_of_mem mem
    rw [array.sizeOf_spec]
    omega
  | object entries =>
    obtain ⟨⟨key, value⟩, hentry, rfl⟩ := List.mem_map.mp mem
    have smaller := List.sizeOf_lt_of_mem hentry
    rw [Prod.mk.sizeOf_spec] at smaller
    rw [object.sizeOf_spec]
    simp only
    omega
  | null | bool | number | string => exact absurd mem List.not_mem_nil

/-- Induction over values: a statement that passes from the parts of a value to the value holds of
every value. -/
theorem parts_induction {P : Json → Prop} (step : ∀ j, (∀ part ∈ parts j, P part) → P j)
    (j : Json) : P j :=
  step j fun part mem =>
    have := sizeOf_part_lt mem
    parts_induction step part
termination_by j

/-- Every number in a value is an integer that fits 64 bits. -/
inductive Exact : Json → Prop
  | node {j : Json} (number : ∀ n, j = .number n → ∃ value, n = .integer value ∧ Fits value)
      (inside : ∀ part ∈ j.parts, Exact part) : Exact j

theorem Exact.number {n : Number} (exact : Exact (.number n)) :
    ∃ value, n = .integer value ∧ Fits value := by
  cases exact with
  | node number => exact number n rfl

theorem Exact.inside {j part : Json} (exact : j.Exact) (mem : part ∈ j.parts) : part.Exact := by
  cases exact with
  | node _ inside => exact inside part mem

theorem exact_string (value : String) : Exact (.string value) :=
  .node nofun nofun

theorem exact_bool (value : Bool) : Exact (.bool value) :=
  .node nofun nofun

theorem exact_integer {value : Int} (fits : Fits value) : Exact (.number (.integer value)) :=
  .node (fun _ is => ⟨value, (Json.number.inj is).symm, fits⟩) nofun

theorem exact_array {items : List Json} : Exact (.array items) ↔ ∀ item ∈ items, Exact item :=
  ⟨fun exact _ mem => exact.inside mem, fun each => .node nofun each⟩

theorem exact_object {entries : List (String × Json)} :
    Exact (.object entries) ↔ ∀ entry ∈ entries, Exact entry.2 :=
  ⟨fun exact _ mem => exact.inside (List.mem_map_of_mem mem),
    fun each => .node nofun (List.forall_mem_map.mpr each)⟩

/-! ## Drafts of values -/

mutual

/-- The draft of a text that is a value. -/
def Draft.ofJson : Json → Draft
  | .null => .null
  | .bool value => .bool value
  | .number value => .number value
  | .string value => .string value
  | .array items => .array (Draft.ofItems items) true
  | .object entries => .object (Draft.ofEntries entries) true

/-- The drafts of items. -/
def Draft.ofItems : List Json → List Draft
  | [] => []
  | item :: rest => Draft.ofJson item :: Draft.ofItems rest

/-- The drafts of entries. -/
def Draft.ofEntries : List (String × Json) → List (Option String × Draft)
  | [] => []
  | (key, value) :: rest => (some key, Draft.ofJson value) :: Draft.ofEntries rest

end

namespace Draft

theorem ofItems_eq (items : List Json) : ofItems items = items.map ofJson := by
  induction items with
  | nil => rfl
  | cons item rest ih => rw [ofItems, ih, List.map_cons]

theorem ofEntries_eq (entries : List (String × Json)) :
    ofEntries entries = entries.map fun (key, value) => (some key, ofJson value) := by
  induction entries with
  | nil => rfl
  | cons entry rest ih =>
    obtain ⟨key, value⟩ := entry
    rw [ofEntries, ih, List.map_cons]

theorem itemsToJson?_ofItems {items : List Json}
    (each : ∀ item ∈ items, (ofJson item).toJson? = some item) :
    itemsToJson? (ofItems items) = some items := by
  induction items with
  | nil => rfl
  | cons item rest ih =>
    rw [List.forall_mem_cons] at each
    rw [ofItems, itemsToJson?, each.1, ih each.2]
    rfl

theorem entriesToJson?_ofEntries {entries : List (String × Json)}
    (each : ∀ value ∈ entries.map Prod.snd, (ofJson value).toJson? = some value) :
    entriesToJson? (ofEntries entries) = some entries := by
  induction entries with
  | nil => rfl
  | cons entry rest ih =>
    obtain ⟨key, value⟩ := entry
    rw [List.map_cons, List.forall_mem_cons] at each
    rw [ofEntries, entriesToJson?, each.1, ih each.2]
    rfl

/-- The draft of a value holds the value. -/
theorem toJson?_ofJson (j : Json) : (ofJson j).toJson? = some j := by
  induction j using parts_induction with
  | step j ih =>
    cases j with
    | array items =>
      have each : ∀ item ∈ items, (ofJson item).toJson? = some item := ih
      rw [ofJson, toJson?, itemsToJson?_ofItems each]
      rfl
    | object entries =>
      have each : ∀ value ∈ entries.map Prod.snd, (ofJson value).toJson? = some value := ih
      rw [ofJson, toJson?, entriesToJson?_ofEntries each]
      rfl
    | null | bool | number | string => rfl

theorem eq_ofItems {items : List Json}
    (each : ∀ item ∈ items, ∀ draft : Draft, draft.toJson? = some item → draft = ofJson item) :
    ∀ {drafts : List Draft}, itemsToJson? drafts = some items → drafts = ofItems items := by
  induction items with
  | nil =>
    intro drafts is
    cases drafts with
    | nil => rfl
    | cons draft drafts =>
      obtain ⟨_, -, is⟩ := Option.bind_eq_some_iff.mp is
      obtain ⟨_, -, is⟩ := Option.bind_eq_some_iff.mp is
      cases is
  | cons item items ih =>
    intro drafts is
    rw [List.forall_mem_cons] at each
    cases drafts with
    | nil => cases is
    | cons draft drafts =>
      obtain ⟨_, first, is⟩ := Option.bind_eq_some_iff.mp is
      obtain ⟨_, others, is⟩ := Option.bind_eq_some_iff.mp is
      cases is
      rw [ofItems, ← each.1 draft first, ← ih each.2 others]

theorem eq_ofEntries {entries : List (String × Json)}
    (each : ∀ value ∈ entries.map Prod.snd, ∀ draft : Draft, draft.toJson? = some value →
      draft = ofJson value) :
    ∀ {drafts : List (Option String × Draft)}, entriesToJson? drafts = some entries →
      drafts = ofEntries entries := by
  induction entries with
  | nil =>
    intro drafts is
    obtain - | ⟨⟨- | key, draft⟩, drafts⟩ := drafts
    · rfl
    · cases is
    · obtain ⟨_, -, is⟩ := Option.bind_eq_some_iff.mp is
      obtain ⟨_, -, is⟩ := Option.bind_eq_some_iff.mp is
      cases is
  | cons entry entries ih =>
    intro drafts is
    rw [List.map_cons, List.forall_mem_cons] at each
    obtain - | ⟨⟨- | key, draft⟩, drafts⟩ := drafts
    · cases is
    · cases is
    · obtain ⟨_, first, is⟩ := Option.bind_eq_some_iff.mp is
      obtain ⟨_, others, is⟩ := Option.bind_eq_some_iff.mp is
      cases is
      rw [ofEntries, ← each.1 draft first, ← ih each.2 others]

/-- Only the draft of a value holds the value. -/
theorem eq_ofJson {j : Json} : ∀ {draft : Draft}, draft.toJson? = some j → draft = ofJson j := by
  induction j using parts_induction with
  | step j ih =>
    intro draft is
    cases draft with
    | fault | unpaired | tooLarge => cases is
    | null | bool | number | string =>
      cases is
      rfl
    | array drafts closed =>
      obtain ⟨items, read, is⟩ := Option.bind_eq_some_iff.mp is
      cases closed <;> cases is
      have each : ∀ item ∈ items, ∀ draft : Draft, draft.toJson? = some item →
          draft = ofJson item := fun item mem _ => ih item mem
      rw [ofJson, eq_ofItems each read]
    | object drafts closed =>
      obtain ⟨entries, read, is⟩ := Option.bind_eq_some_iff.mp is
      cases closed <;> cases is
      have each : ∀ value ∈ entries.map Prod.snd, ∀ draft : Draft, draft.toJson? = some value →
          draft = ofJson value := fun value mem _ => ih value mem
      rw [ofJson, eq_ofEntries each read]

end Draft

/-! ## Heads -/

theorem skipBlanks_cons {c : Char} (notBlank : isBlank c = false) (rest : List Char) :
    skipBlanks (c :: rest) = c :: rest := by
  rw [skipBlanks, List.dropWhile_cons_of_neg (by simp [notBlank])]

/-- An integer starts with a digit or a sign. -/
theorem render_integer (value : Int) :
    ∃ c rest, (Number.integer value).render = c :: rest ∧ (c = '-' ∨ c.isDigit = true) := by
  change ∃ c rest, value.repr.toList = c :: rest ∧ _
  rw [Int.repr_eq_if]
  split
  · obtain ⟨c, digits, head, isDigit⟩ := Numeral.toDigits_head value.toNat
    rw [Nat.toList_repr]
    exact ⟨c, digits, head, Or.inr isDigit⟩
  · rw [String.toList_append]
    exact ⟨'-', _, rfl, Or.inl rfl⟩

/-- A digit is neither a blank nor a bracket. -/
theorem isBlank_digit {c : Char} (digit : c.isDigit = true) : isBlank c = false ∧ c ≠ ']' := by
  have notBlank : ∀ blank, blank.isDigit = false → (c == blank) = false := by
    rintro blank notDigit
    rw [beq_eq_false_iff_ne]
    rintro rfl
    exact absurd digit (by simp [notDigit])
  refine ⟨?_, fun is => absurd digit (by rw [is]; decide)⟩
  rw [isBlank, notBlank ' ' rfl, notBlank '\t' rfl, notBlank '\n' rfl, notBlank '\r' rfl]
  rfl

/-- A text of a value starts with neither a blank nor a closing bracket. -/
theorem render_head {j : Json} (exact : j.Exact) :
    ∃ c rest, j.render = c :: rest ∧ isBlank c = false ∧ c ≠ ']' := by
  cases j with
  | null => exact ⟨_, _, rfl, by decide, by decide⟩
  | bool value => cases value <;> exact ⟨_, _, rfl, by decide, by decide⟩
  | number n =>
    obtain ⟨value, rfl, -⟩ := exact.number
    obtain ⟨c, rest, head, sign | digit⟩ := render_integer value
    · exact ⟨c, rest, head, by rw [sign]; decide, by rw [sign]; decide⟩
    · exact ⟨c, rest, head, isBlank_digit digit⟩
  | string value => exact ⟨_, _, rfl, by decide, by decide⟩
  | array items => cases items <;> exact ⟨_, _, rfl, by decide, by decide⟩
  | object entries => cases entries <;> exact ⟨_, _, rfl, by decide, by decide⟩

/-! ## Texts -/

open Draft (readValue readItems readEntries readScalar ofJson ofItems ofEntries)

/-- A value is read back from its text, whatever stands behind it. -/
def ReadsBack (j : Json) : Prop :=
  ∀ fuel rest, Ends rest → j.render.length ≤ fuel →
    readValue fuel (j.render ++ rest) = (ofJson j, some rest)

theorem readValue_scalar {c : Char} {fuel : Nat} {text : List Char} (notBlank : isBlank c = false)
    (notArray : c ≠ '[') (notObject : c ≠ '{') :
    readValue (fuel + 1) (c :: text) = readScalar (c :: text) := by
  rw [readValue, skipBlanks_cons notBlank]
  split
  · next is => exact absurd (List.cons.inj is).1 notArray
  · next is => exact absurd (List.cons.inj is).1 notObject
  · rfl

theorem renderItems_ends (items : List Json) (rest : List Char) :
    Ends (renderItems items ++ rest) := by
  cases items <;> exact ends_cons (by simp) _

theorem renderEntries_ends (entries : List (String × Json)) (rest : List Char) :
    Ends (renderEntries entries ++ rest) := by
  obtain - | ⟨⟨key, value⟩, entries⟩ := entries <;> exact ends_cons (by simp) _

/-- The items of an array are read back together with the closing bracket. -/
theorem readItems_render {items : List Json} :
    ∀ item, (∀ j ∈ item :: items, ReadsBack j) → ∀ fuel rest,
      item.render.length + (renderItems items).length ≤ fuel →
      readItems fuel (item.render ++ (renderItems items ++ rest)) =
        (ofItems (item :: items), some rest) := by
  induction items with
  | nil =>
    intro item each fuel rest enough
    obtain ⟨back, -⟩ := List.forall_mem_cons.mp each
    obtain _ | fuel := fuel
    · exact absurd enough (by simp [renderItems])
    have short : item.render.length ≤ fuel := Nat.le_of_succ_le_succ enough
    rw [readItems, back fuel _ (renderItems_ends [] rest) short]
    rfl
  | cons next items ih =>
    intro item each fuel rest enough
    obtain ⟨back, others⟩ := List.forall_mem_cons.mp each
    rw [renderItems, List.length_cons, List.length_append] at enough
    obtain _ | fuel := fuel
    · exact absurd enough (by simp)
    rw [readItems, back fuel _ (renderItems_ends (next :: items) rest) (by omega), renderItems,
      List.cons_append, List.append_assoc]
    simp only [skipBlanks_cons (c := ',') rfl, ih next others fuel rest (by omega)]
    rfl

/-- The entries of an object are read back together with the closing brace. -/
theorem readEntries_render {entries : List (String × Json)} :
    ∀ key value, (∀ j ∈ value :: entries.map Prod.snd, ReadsBack j) → ∀ fuel rest,
      value.render.length + (renderEntries entries).length ≤ fuel →
      readEntries fuel (StringLiteral.encode key ++
          ':' :: (value.render ++ (renderEntries entries ++ rest))) =
        (ofEntries ((key, value) :: entries), some rest) := by
  induction entries with
  | nil =>
    intro key value each fuel rest enough
    obtain ⟨back, -⟩ := List.forall_mem_cons.mp each
    obtain _ | fuel := fuel
    · exact absurd enough (by simp [renderEntries])
    have short : value.render.length ≤ fuel := Nat.le_of_succ_le_succ enough
    rw [readEntries, StringLiteral.encode, List.cons_append, List.append_assoc,
      skipBlanks_cons rfl]
    simp only [List.singleton_append, StringLiteral.read?_encoded,
      skipBlanks_cons (c := ':') rfl, back fuel _ (renderEntries_ends [] rest) short]
    rfl
  | cons next entries ih =>
    obtain ⟨nextKey, nextValue⟩ := next
    intro key value each fuel rest enough
    obtain ⟨back, others⟩ := List.forall_mem_cons.mp each
    have ends := renderEntries_ends ((nextKey, nextValue) :: entries) rest
    rw [renderEntries] at enough ends
    simp only [List.length_cons, List.length_append] at enough
    obtain _ | fuel := fuel
    · exact absurd enough (by simp)
    have read := ih nextKey nextValue others fuel rest (by omega)
    simp only [renderEntries, StringLiteral.encode, List.cons_append, List.append_assoc,
      List.nil_append] at ends read ⊢
    rw [readEntries, skipBlanks_cons rfl]
    simp only [StringLiteral.read?_encoded, skipBlanks_cons (c := ':') rfl,
      back fuel _ ends (by omega), skipBlanks_cons (c := ',') rfl, read]
    rfl

/-- An array is read back if its items are. -/
theorem readsBack_array {items : List Json} (exact : (array items).Exact)
    (each : ∀ j ∈ items, ReadsBack j) : ReadsBack (array items) := by
  intro fuel rest ends enough
  obtain _ | fuel := fuel
  · exact absurd enough (by cases items <;> simp [render])
  cases items with
  | nil => rfl
  | cons item items =>
    obtain ⟨c, tail, head, notBlank, notEnd⟩ := render_head (exact.inside List.mem_cons_self)
    simp only [render, List.length_cons, List.length_append] at enough
    have read := readItems_render item each fuel rest (by omega)
    rw [render, readValue, List.cons_append, List.append_assoc, skipBlanks_cons rfl]
    rw [head, List.cons_append] at read ⊢
    simp only [skipBlanks_cons notBlank]
    -- The first item does not look like the end of an empty array.
    split
    · next is => exact absurd (List.cons.inj is).1 notEnd
    · rw [read]
      rfl

/-- An object is read back if the values of its entries are. -/
theorem readsBack_object {entries : List (String × Json)}
    (each : ∀ j ∈ entries.map Prod.snd, ReadsBack j) : ReadsBack (object entries) := by
  intro fuel rest ends enough
  obtain _ | fuel := fuel
  · exact absurd enough (by obtain _ | ⟨⟨_, _⟩, _⟩ := entries <;> simp [render])
  obtain _ | ⟨⟨key, value⟩, entries⟩ := entries
  · rfl
  · simp only [render, List.length_cons, List.length_append] at enough
    have read := readEntries_render key value each fuel rest (by omega)
    simp only [render, StringLiteral.encode, List.cons_append, List.append_assoc,
      List.nil_append] at read ⊢
    rw [readValue, skipBlanks_cons rfl]
    simp only [skipBlanks_cons (c := '"') rfl]
    split
    · next is => exact absurd (List.cons.inj is).1 (by decide)
    · rw [read]
      rfl

/-- A number is read back if it is an integer of 64 bits. -/
theorem readsBack_number {n : Number} (exact : (Json.number n).Exact) :
    ReadsBack (.number n) := by
  intro fuel rest ends enough
  obtain ⟨value, rfl, fits⟩ := exact.number
  obtain ⟨c, tail, head, start⟩ := render_integer value
  have other : ∀ d, d ≠ '-' → d.isDigit = false → c ≠ d := by
    rintro d notSign notDigit rfl
    rcases start with sign | digit
    · exact notSign sign
    · exact absurd digit (by simp [notDigit])
  have number := readNumber_integer fits ends
  rw [head, List.cons_append] at number
  rw [render, head] at enough ⊢
  obtain _ | fuel := fuel
  · exact absurd enough (by simp)
  have notBlank : isBlank c = false := by
    rcases start with rfl | digit
    · rfl
    · exact (isBlank_digit digit).1
  rw [List.cons_append, readValue_scalar notBlank (other _ (by decide) rfl)
    (other _ (by decide) rfl)]
  unfold readScalar
  split
  · next is => exact absurd (List.cons.inj is).1 (other _ (by decide) rfl)
  · next is => exact absurd (List.cons.inj is).1 (other _ (by decide) rfl)
  · next is => exact absurd (List.cons.inj is).1 (other _ (by decide) rfl)
  · next is => exact absurd (List.cons.inj is).1 (other _ (by decide) rfl)
  · exact number

theorem readsBack_string (value : String) : ReadsBack (.string value) := by
  intro fuel rest ends enough
  obtain _ | fuel := fuel
  · exact absurd enough (by simp [render, StringLiteral.encode])
  rw [render, StringLiteral.encode, List.cons_append, List.append_assoc,
    readValue_scalar rfl (by decide) (by decide), readScalar, Draft.readString,
    List.singleton_append, StringLiteral.read?_encoded]
  rfl

/-- **A value is read back from its text.** -/
theorem readsBack {j : Json} (exact : j.Exact) : ReadsBack j := by
  induction j using parts_induction with
  | step j ih =>
    have each : ∀ part ∈ j.parts, ReadsBack part := fun part mem => ih part mem (exact.inside mem)
    cases j with
    | array items => exact readsBack_array exact each
    | object entries => exact readsBack_object each
    | number n => exact readsBack_number exact
    | string value => exact readsBack_string value
    | null =>
      rintro (_ | fuel) rest ends enough
      · exact absurd enough (by simp [render])
      · rfl
    | bool value =>
      rintro (_ | fuel) rest ends enough
      · exact absurd enough (by cases value <;> simp [render])
      · cases value <;> rfl

/-- The steps that come with a text are enough for it. -/
theorem Draft.read_render {j : Json} (exact : j.Exact) :
    Draft.read j.render = (ofJson j, some []) := by
  have back := readsBack exact (fuelFor j.render) [] ends_nil (by rw [fuelFor]; omega)
  rwa [List.append_nil] at back

/-- The text of a value is well-formed. -/
theorem wellFormed_toText {j : Json} (exact : j.Exact) :
    WellFormed j.toText.toList (.ofJson j) := by
  rw [toText, String.toList_ofList]
  exact ⟨[], Draft.read_render exact, rfl⟩

/-- A value is the value of its text. -/
theorem parse?_render {j : Json} (exact : j.Exact) : parse? j.render = some j := by
  rw [parse?, Draft.read_render exact]
  exact Draft.toJson?_ofJson j

/-- What a text with a value is read as. -/
theorem read_of_parse? {text : List Char} {j : Json} (parsed : parse? text = some j) :
    ∃ rest, Draft.read text = (ofJson j, some rest) ∧ skipBlanks rest = [] := by
  rw [parse?] at parsed
  split at parsed
  · next draft rest read =>
    split at parsed
    · next ended => exact ⟨rest, Draft.eq_ofJson parsed ▸ read, List.isEmpty_iff.mp ended⟩
    · cases parsed
  · cases parsed

end Json

end SelfTyped
