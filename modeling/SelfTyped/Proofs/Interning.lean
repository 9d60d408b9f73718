/-
SelfTyped.Proofs.Interning — a table over a sequence of calls.

What a single call does is told by `Interner.Correct`: a text is found
exactly if it was entered, interning a known text gives its symbol and
changes nothing, and interning a new one makes it known and hides no
other.  Numbered entries and slices both are correct in this sense.

A symbol that was once handed out for a text is therefore found for that
text ever after (`Correct.lookup?_after_of_answered`).  Hence symbols with
equal texts are one symbol, by whatever means a table tells symbols apart.
That different texts have different symbols depends on these means: an
entry holds one text, and slices are `Slice.Apart` if different texts
start at different addresses.
-/
import Mathlib.Data.List.Dedup
import SelfTyped.Text.Interner

namespace SelfTyped

namespace Interner

variable {τ σ : Type} {ops : Interner τ σ} {texts : τ → List Name} {table : τ}

/-! ## Single calls -/

/-- What each operation of a table does, where `texts` are the texts entered so far. -/
structure Correct (ops : Interner τ σ) (texts : τ → List Name) : Prop where
  found_iff : ∀ table text, (ops.lookup? table text).isSome ↔ text ∈ texts table
  asked : ∀ {table text symbol}, ops.lookup? table text = some symbol → ops.text symbol = text
  intern_known : ∀ {table slice symbol}, ops.lookup? table slice.text = some symbol →
    ops.intern table slice = (symbol, table)
  texts_intern_new : ∀ {table slice}, ops.lookup? table slice.text = none →
    texts (ops.intern table slice).2 = texts table ++ [slice.text]
  lookup?_intern_new : ∀ {table slice}, ops.lookup? table slice.text = none → ∀ text,
    ops.lookup? (ops.intern table slice).2 text =
      (ops.lookup? table text).or
        (if text = slice.text then some (ops.intern table slice).1 else none)
  size_eq : ∀ table, ops.size table = (texts table).length
  self?_eq : ∀ table, ops.self? table = ops.lookup? table Known.self
  selfType?_eq : ∀ table, ops.selfType? table = ops.lookup? table Known.selfType
  same_refl : ∀ symbol, ops.same symbol symbol
  order_eq : ∀ a b, ops.order a b = compare (ops.text a) (ops.text b)

namespace Correct

variable (correct : ops.Correct texts)
include correct

/-- Interning a text makes it known by the symbol handed out. -/
theorem lookup?_intern_self (table : τ) (slice : Slice) :
    ops.lookup? (ops.intern table slice).2 slice.text = some (ops.intern table slice).1 := by
  cases known : ops.lookup? table slice.text with
  | some symbol => rw [correct.intern_known known, known]
  | none => rw [correct.lookup?_intern_new known, known, if_pos rfl, Option.none_or]

/-- A text keeps its symbol when another is interned. -/
theorem lookup?_intern {text : Name} {symbol : σ} (found : ops.lookup? table text = some symbol)
    (slice : Slice) : ops.lookup? (ops.intern table slice).2 text = some symbol := by
  cases known : ops.lookup? table slice.text with
  | some _ => rwa [correct.intern_known known]
  | none => rw [correct.lookup?_intern_new known, found, Option.some_or]

/-- Interning enters a text unless it is known. -/
theorem texts_intern (table : τ) (slice : Slice) :
    texts (ops.intern table slice).2 =
      if slice.text ∈ texts table then texts table else texts table ++ [slice.text] := by
  have found := correct.found_iff table slice.text
  cases known : ops.lookup? table slice.text with
  | some symbol => rw [correct.intern_known known, if_pos (found.mp (by rw [known]; rfl))]
  | none =>
    rw [correct.texts_intern_new known, if_neg fun entered => ?_]
    simpa [known] using found.mpr entered

/-- A call changes nothing for the texts that are known. -/
theorem lookup?_answer {text : Name} {symbol : σ} (found : ops.lookup? table text = some symbol)
    (call : TableCall) : ops.lookup? (ops.answer table call).2 text = some symbol := by
  cases call with
  | intern slice => exact correct.lookup?_intern found slice
  | lookup _ => exact found

/-- What a call is answered is found from then on. -/
theorem lookup?_answer_self {call : TableCall} {symbol : σ}
    (answered : (ops.answer table call).1 = some symbol) :
    ops.lookup? (ops.answer table call).2 call.text = some symbol := by
  cases call with
  | intern slice => exact (correct.lookup?_intern_self table slice).trans answered
  | lookup _ => exact answered

/-- The texts after a call. -/
theorem mem_texts_answer (table : τ) (call : TableCall) (text : Name) :
    text ∈ texts (ops.answer table call).2 ↔
      text ∈ texts table ∨ text ∈ call.slice?.map Slice.text := by
  cases call with
  | intern slice =>
    show text ∈ texts (ops.intern table slice).2 ↔ text ∈ texts table ∨ text ∈ some slice.text
    rw [correct.texts_intern]
    split
    next entered =>
      exact ⟨.inl, fun known => known.elim id fun same => Option.some.inj same ▸ entered⟩
    next fresh => simp [eq_comm]
  | lookup _ =>
    show text ∈ texts table ↔ text ∈ texts table ∨ text ∈ (none : Option Name)
    simp

/-- No text is entered twice. -/
theorem nodup_texts_answer (distinct : (texts table).Nodup) (call : TableCall) :
    (texts (ops.answer table call).2).Nodup := by
  cases call with
  | intern slice =>
    show (texts (ops.intern table slice).2).Nodup
    rw [correct.texts_intern]
    split
    next => exact distinct
    next fresh =>
      refine List.nodup_append.mpr ⟨distinct, List.nodup_singleton _, fun old entered _ last => ?_⟩
      rw [List.mem_singleton.mp last]
      exact fun same => fresh (same ▸ entered)
  | lookup _ => exact distinct

end Correct

/-! ## Sequences of calls -/

theorem after_append (ops : Interner τ σ) (table : τ) (calls later : List TableCall) :
    ops.after table (calls ++ later) = ops.after (ops.after table calls) later :=
  List.foldl_append

/-- A lookup leaves the table as it is. -/
theorem after_interns (ops : Interner τ σ) (table : τ) (calls : List TableCall) :
    ops.after table (calls.filter (·.slice?.isSome)) = ops.after table calls := by
  induction calls generalizing table with
  | nil => rfl
  | cons call rest ih =>
    cases call with
    | intern slice => exact ih _
    | lookup text => exact ih table

/-- Every call to intern is answered. -/
theorem intern_answered (ops : Interner τ σ) (table : τ) (calls : List TableCall)
    (slice : Slice) : (.intern slice, none) ∉ ops.answers table calls := by
  induction calls generalizing table with
  | nil => exact List.not_mem_nil
  | cons call rest ih =>
    rw [answers, List.mem_cons, not_or]
    refine ⟨fun first => ?_, ih _⟩
    obtain ⟨rfl, unanswered⟩ := Prod.mk.inj first
    cases unanswered

theorem mem_symbols {calls : List TableCall} {symbol : σ} :
    symbol ∈ ops.symbols table calls ↔ ∃ call, (call, some symbol) ∈ ops.answers table calls := by
  simp only [symbols, List.mem_filterMap, Prod.exists, exists_eq_right]

/-- What holds of a table, of the answers it gives to a sequence of calls, and of the table
that is left. -/
structure Lawful (ops : Interner τ σ) (table : τ) (calls : List TableCall) : Prop where
  /-- Two symbols are taken for one exactly if their texts are equal. -/
  same_iff : ∀ a ∈ ops.symbols table calls, ∀ b ∈ ops.symbols table calls,
    ops.same a b ↔ ops.text a = ops.text b
  /-- Two symbols are of one rank exactly if their texts are equal. -/
  order_iff : ∀ a ∈ ops.symbols table calls, ∀ b ∈ ops.symbols table calls,
    ops.order a b = .eq ↔ ops.text a = ops.text b
  /-- The text of a symbol is the one that was asked for. -/
  asked : ∀ call symbol, (call, some symbol) ∈ ops.answers table calls →
    ops.text symbol = call.text
  /-- Interning always hands out a symbol. -/
  answered : ∀ slice, (.intern slice, none) ∉ ops.answers table calls
  /-- Whatever is called in between, a text that is asked for again has the same symbol. -/
  stays : ∀ call symbol, (call, some symbol) ∈ ops.answers table calls → ∀ later again,
    again.text = call.text →
      (ops.answer (ops.after table (calls ++ later)) again).1 = some symbol
  /-- The texts found are the two names of a new table and those that were interned. -/
  found_iff : ∀ text, (ops.lookup? (ops.after table calls) text).isSome ↔
    text = Known.self ∨ text = Known.selfType ∨ text ∈ TableCall.interned calls
  /-- The table is what the calls to intern alone make of it. -/
  lookups_inert : ops.after table (calls.filter (·.slice?.isSome)) = ops.after table calls
  /-- Every text counts once. -/
  size_eq : ops.size (ops.after table calls) =
    (Known.self :: Known.selfType :: TableCall.interned calls).dedup.length
  /-- The symbol of `self` is always there. -/
  self?_text : (ops.self? (ops.after table calls)).map ops.text = some Known.self
  /-- The symbol of `SELF_TYPE` is always there. -/
  selfType?_text : (ops.selfType? (ops.after table calls)).map ops.text = some Known.selfType

namespace Correct

variable (correct : ops.Correct texts)
include correct

theorem lookup?_after {text : Name} {symbol : σ} (found : ops.lookup? table text = some symbol)
    (calls : List TableCall) : ops.lookup? (ops.after table calls) text = some symbol := by
  induction calls generalizing table with
  | nil => exact found
  | cons call rest ih => exact ih (correct.lookup?_answer found call)

/-- The symbol that was handed out for a text is found for it at the end. -/
theorem lookup?_after_of_answered {calls : List TableCall} {call : TableCall} {symbol : σ}
    (answered : (call, some symbol) ∈ ops.answers table calls) :
    ops.lookup? (ops.after table calls) call.text = some symbol := by
  induction calls generalizing table with
  | nil => cases answered
  | cons first rest ih =>
    rcases List.mem_cons.mp answered with here | later
    · obtain ⟨rfl, given⟩ := Prod.mk.inj here
      exact correct.lookup?_after (correct.lookup?_answer_self given.symm) rest
    · exact ih later

/-- A text that is known is answered by its symbol, whichever way it is asked for. -/
theorem answer_of_found {call : TableCall} {symbol : σ}
    (found : ops.lookup? table call.text = some symbol) :
    (ops.answer table call).1 = some symbol := by
  cases call with
  | intern slice => rw [answer, correct.intern_known found]
  | lookup _ => exact found

theorem mem_texts_after (table : τ) (calls : List TableCall) (text : Name) :
    text ∈ texts (ops.after table calls) ↔
      text ∈ texts table ∨ text ∈ TableCall.interned calls := by
  induction calls generalizing table with
  | nil => simp [after, TableCall.interned, TableCall.slices]
  | cons call rest ih =>
    show text ∈ texts (ops.after (ops.answer table call).2 rest) ↔ _
    rw [ih, correct.mem_texts_answer, or_assoc]
    cases call with
    | intern slice => simp [TableCall.interned, TableCall.slices, TableCall.slice?, eq_comm]
    | lookup _ => simp [TableCall.interned, TableCall.slices, TableCall.slice?]

theorem nodup_texts_after (distinct : (texts table).Nodup) (calls : List TableCall) :
    (texts (ops.after table calls)).Nodup := by
  induction calls generalizing table with
  | nil => exact distinct
  | cons call rest ih => exact ih (correct.nodup_texts_answer distinct call)

theorem found_after_iff (new : texts table = [Known.self, Known.selfType])
    (calls : List TableCall) (text : Name) :
    (ops.lookup? (ops.after table calls) text).isSome ↔
      text = Known.self ∨ text = Known.selfType ∨ text ∈ TableCall.interned calls := by
  rw [correct.found_iff, correct.mem_texts_after, new]
  simp [or_assoc]

/-- A table has as many entries as there are different texts. -/
theorem size_after (new : texts table = [Known.self, Known.selfType]) (calls : List TableCall) :
    ops.size (ops.after table calls) =
      (Known.self :: Known.selfType :: TableCall.interned calls).dedup.length := by
  have distinct : (texts table).Nodup := by rw [new]; decide
  rw [correct.size_eq]
  refine List.Perm.length_eq ((List.perm_ext_iff_of_nodup
    (correct.nodup_texts_after distinct calls) (List.nodup_dedup _)).mpr fun text => ?_)
  rw [List.mem_dedup, correct.mem_texts_after, new]
  simp [or_assoc]

/-- A text that is found is found under a symbol of that text. -/
theorem text_of_isSome {text : Name} (found : (ops.lookup? table text).isSome) :
    (ops.lookup? table text).map ops.text = some text := by
  obtain ⟨symbol, known⟩ := Option.isSome_iff_exists.mp found
  rw [known, Option.map_some, correct.asked known]

/-- A symbol that was handed out is found by its own text at the end. -/
theorem lookup?_after_of_mem {calls : List TableCall} {symbol : σ}
    (handed : symbol ∈ ops.symbols table calls) :
    ops.lookup? (ops.after table calls) (ops.text symbol) = some symbol := by
  obtain ⟨call, answered⟩ := mem_symbols.mp handed
  have found := correct.lookup?_after_of_answered answered
  rwa [correct.asked found]

/-- A correct table is lawful if, among the symbols found in it at the end, those that are taken
for one have one text. -/
theorem lawful (new : texts table = [Known.self, Known.selfType]) {calls : List TableCall}
    (told : ∀ a b, ops.lookup? (ops.after table calls) (ops.text a) = some a →
      ops.lookup? (ops.after table calls) (ops.text b) = some b →
      ops.same a b → ops.text a = ops.text b) :
    ops.Lawful table calls where
  same_iff a handedA b handedB := by
    have foundA := correct.lookup?_after_of_mem handedA
    have foundB := correct.lookup?_after_of_mem handedB
    refine ⟨told a b foundA foundB, fun equal => ?_⟩
    rw [equal, foundB] at foundA
    obtain rfl := Option.some.inj foundA
    exact correct.same_refl _
  order_iff a _ b _ := by rw [correct.order_eq, Std.LawfulEqCmp.compare_eq_iff_eq]
  asked call symbol answered := correct.asked (correct.lookup?_after_of_answered answered)
  answered := intern_answered ops table calls
  stays call symbol answered later again equal := by
    have found := correct.lookup?_after (correct.lookup?_after_of_answered answered) later
    rw [← after_append, ← equal] at found
    exact correct.answer_of_found found
  found_iff := correct.found_after_iff new calls
  lookups_inert := after_interns ops table calls
  size_eq := correct.size_after new calls
  self?_text := by
    rw [correct.self?_eq]
    exact correct.text_of_isSome ((correct.found_after_iff new calls _).mpr (.inl rfl))
  selfType?_text := by
    rw [correct.selfType?_eq]
    exact correct.text_of_isSome ((correct.found_after_iff new calls _).mpr (.inr (.inl rfl)))

end Correct

/-! ## Two tables -/

section Agreement

variable {τ' σ' : Type} {ops' : Interner τ' σ'} {texts' : τ' → List Name} {table' : τ'}

/-- The text of an answer depends on the texts that were entered. -/
theorem Correct.text_answer (correct : ops.Correct texts) (table : τ) (call : TableCall) :
    (ops.answer table call).1.map ops.text =
      if call.text ∈ texts table ∨ call.slice?.isSome then some call.text else none := by
  cases call with
  | intern slice =>
    rw [if_pos (.inr rfl)]
    exact congrArg some (correct.asked (correct.lookup?_intern_self table slice))
  | lookup text =>
    show (ops.lookup? table text).map ops.text = _
    by_cases found : (ops.lookup? table text).isSome
    · rw [correct.text_of_isSome found, if_pos (.inl ((correct.found_iff _ _).mp found))]
      rfl
    · rw [Option.not_isSome_iff_eq_none.mp found, if_neg]
      · rfl
      · rintro (known | ⟨⟨⟩⟩)
        exact found ((correct.found_iff _ _).mpr known)

/-- A call keeps tables together that hold the same texts. -/
theorem Correct.texts_answer_congr (correct : ops.Correct texts) (correct' : ops'.Correct texts')
    (held : texts table = texts' table') (call : TableCall) :
    texts (ops.answer table call).2 = texts' (ops'.answer table' call).2 := by
  cases call with
  | intern slice =>
    show texts (ops.intern table slice).2 = texts' (ops'.intern table' slice).2
    rw [correct.texts_intern, correct'.texts_intern, held]
  | lookup _ => exact held

/-- Tables that hold the same texts answer alike, and then hold the same texts again. -/
theorem Correct.agree (correct : ops.Correct texts) (correct' : ops'.Correct texts')
    (held : texts table = texts' table') (calls : List TableCall) :
    ops.transcript table calls = ops'.transcript table' calls ∧
      texts (ops.after table calls) = texts' (ops'.after table' calls) := by
  induction calls generalizing table table' with
  | nil => exact ⟨rfl, held⟩
  | cons call rest ih =>
    obtain ⟨transcripts, heldAfter⟩ := ih (correct.texts_answer_congr correct' held call)
    refine ⟨?_, heldAfter⟩
    show (call, (ops.answer table call).1.map ops.text) :: ops.transcript _ rest =
      (call, (ops'.answer table' call).1.map ops'.text) :: ops'.transcript _ rest
    rw [correct.text_answer, correct'.text_answer, held, transcripts]

end Agreement

end Interner

/-! ## Numbered entries -/

namespace NameTable

/-- A new entry at the end is found by its text, and hides no other. -/
theorem lookup?_append (entries : List Name) (new text : Name) :
    lookup? ⟨entries ++ [new]⟩ text =
      (lookup? ⟨entries⟩ text).or
        (if text = new then some ⟨entries.length, text⟩ else none) := by
  simp only [lookup?, List.idxOf?, List.findIdx?_append, Option.map_or]
  by_cases same : text = new
  · simp [same]
  · simp [List.findIdx?_cons, same, Ne.symm same]

/-- The text of a symbol stands at the entry of the symbol. -/
theorem entry_of_lookup? {table : NameTable} {text : Name} {symbol : Symbol}
    (found : table.lookup? text = some symbol) :
    table.entries[symbol.entry]? = some symbol.text := by
  obtain ⟨entry, position, rfl⟩ := Option.map_eq_some_iff.mp found
  obtain ⟨bound, here, -⟩ := List.idxOf?_eq_some_iff.mp position
  exact (List.getElem?_eq_getElem bound).trans (congrArg some here)

theorem intern_of_known {table : NameTable} {text : Name} {symbol : Symbol}
    (known : table.lookup? text = some symbol) : table.intern text = (symbol, table) := by
  rw [intern, known]

theorem intern_of_new {table : NameTable} {text : Name} (new : table.lookup? text = none) :
    table.intern text = (⟨table.entries.length, text⟩, ⟨table.entries ++ [text]⟩) := by
  rw [intern, new]

theorem correct : interner.Correct entries where
  found_iff table text := by
    show (table.lookup? text).isSome ↔ _
    rw [lookup?, Option.isSome_map, List.isSome_idxOf?]
  asked found := by
    obtain ⟨entry, -, rfl⟩ := Option.map_eq_some_iff.mp found
    rfl
  intern_known known := intern_of_known known
  texts_intern_new new := congrArg (·.2.entries) (intern_of_new new)
  lookup?_intern_new {table slice} new text := by
    show lookup? (table.intern slice.text).2 text =
      (table.lookup? text).or (if text = slice.text then some (table.intern slice.text).1 else none)
    rw [intern_of_new new, lookup?_append]
    split
    next same => rw [same]
    next => rfl
  size_eq _ := rfl
  self?_eq _ := rfl
  selfType?_eq _ := rfl
  same_refl symbol := beq_self_eq_true symbol.entry
  order_eq _ _ := rfl

/-- An entry tells a symbol's text: it holds one text and never changes. -/
theorem lawful (calls : List TableCall) : interner.Lawful initial calls :=
  correct.lawful rfl fun a b foundA foundB (same : a.entry == b.entry) => by
    have entryA := entry_of_lookup? foundA
    rw [beq_iff_eq.mp same, entry_of_lookup? foundB] at entryA
    exact (Option.some.inj entryA).symm

end NameTable

/-! ## Slices -/

namespace SliceTable

theorem lookup?_append (entries : List Slice) (new : Slice) (text : Name) :
    lookup? ⟨entries ++ [new]⟩ text =
      (lookup? ⟨entries⟩ text).or (if text = new.text then some new else none) := by
  by_cases same : text = new.text
  · simp [lookup?, same]
  · simp [lookup?, same, Ne.symm same]

theorem intern_of_known {table : SliceTable} {slice kept : Slice}
    (known : table.lookup? slice.text = some kept) : table.intern slice = (kept, table) := by
  rw [intern, known]

theorem intern_of_new {table : SliceTable} {slice : Slice}
    (new : table.lookup? slice.text = none) :
    table.intern slice = (slice, ⟨table.entries ++ [slice]⟩) := by
  rw [intern, new]

theorem correct : interner.Correct texts where
  found_iff table text := by
    show (table.lookup? text).isSome ↔ _
    simp [lookup?, texts]
  asked {table text slice} (found : table.entries.find? (·.text == text) = some slice) := by
    have equal := List.find?_some found
    exact beq_iff_eq.mp equal
  intern_known known := intern_of_known known
  texts_intern_new {table slice} new := by
    show texts (table.intern slice).2 = _
    rw [intern_of_new new, texts, List.map_append]
    rfl
  lookup?_intern_new {table slice} new text := by
    show lookup? (table.intern slice).2 text =
      (table.lookup? text).or (if text = slice.text then some (table.intern slice).1 else none)
    rw [intern_of_new new, lookup?_append]
  size_eq table := (List.length_map _).symm
  self?_eq _ := rfl
  selfType?_eq _ := rfl
  same_refl slice := beq_self_eq_true slice.start
  order_eq _ _ := rfl

/-- Interning keeps no slice but those it is given. -/
theorem mem_entries_intern {table : SliceTable} {slice entry : Slice}
    (kept : entry ∈ (table.intern slice).2.entries) : entry ∈ table.entries ∨ entry = slice := by
  cases known : table.lookup? slice.text with
  | some _ =>
    rw [intern_of_known known] at kept
    exact .inl kept
  | none =>
    rw [intern_of_new known] at kept
    simpa using kept

theorem mem_entries_after {table : SliceTable} {calls : List TableCall} {entry : Slice}
    (kept : entry ∈ (interner.after table calls).entries) :
    entry ∈ table.entries ∨ entry ∈ TableCall.slices calls := by
  induction calls generalizing table with
  | nil => exact .inl kept
  | cons call rest ih =>
    cases call with
    | intern slice =>
      have later : entry ∈ (interner.after (table.intern slice).2 rest).entries := kept
      rcases ih later with entered | offered
      · rcases mem_entries_intern entered with old | rfl
        · exact .inl old
        · exact .inr List.mem_cons_self
      · exact .inr (List.mem_cons_of_mem _ offered)
    | lookup _ =>
      have later : entry ∈ (interner.after table rest).entries := kept
      exact ih later

theorem entries_initial (self selfType : Nat) :
    (initial self selfType).entries = [⟨self, Known.self⟩, ⟨selfType, Known.selfType⟩] :=
  rfl

/-- An address tells a symbol's text, since different texts start at different addresses. -/
theorem lawful (self selfType : Nat) (calls : List TableCall)
    (apart : Slice.Apart
      (⟨self, Known.self⟩ :: ⟨selfType, Known.selfType⟩ :: TableCall.slices calls)) :
    interner.Lawful (initial self selfType) calls := by
  have offered : ∀ {text slice}, (interner.after (initial self selfType) calls).lookup? text =
      some slice → slice ∈ (⟨self, Known.self⟩ :: ⟨selfType, Known.selfType⟩ ::
        TableCall.slices calls : List Slice) := by
    intro text slice found
    rcases mem_entries_after (List.mem_of_find?_eq_some found) with known | given
    · rw [entries_initial] at known
      exact List.mem_append_left _ known
    · exact List.mem_append_right [_, _] given
  exact correct.lawful rfl fun a b foundA foundB same =>
    apart a (offered foundA) b (offered foundB) (beq_iff_eq.mp same)

end SliceTable

/-- **Identity of symbols is equality of texts.**  Over any sequence of calls on a new table, and
wherever its slices lie, as long as different texts start at different addresses: a table that
tells symbols apart by their addresses is lawful, and so is one that numbers its entries; both
answer every call with the same text, and in the end hold the same texts. -/
theorem interning_lawful (self selfType : Nat) (calls : List TableCall)
    (apart : Slice.Apart
      (⟨self, Known.self⟩ :: ⟨selfType, Known.selfType⟩ :: TableCall.slices calls)) :
    SliceTable.interner.Lawful (.initial self selfType) calls ∧
      NameTable.interner.Lawful .initial calls ∧
      SliceTable.interner.transcript (.initial self selfType) calls =
        NameTable.interner.transcript .initial calls ∧
      (SliceTable.interner.after (.initial self selfType) calls).texts =
        (NameTable.interner.after .initial calls).entries :=
  ⟨SliceTable.lawful self selfType calls apart, NameTable.lawful calls,
    SliceTable.correct.agree NameTable.correct rfl calls⟩

/-- `Main` is entered from one buffer, asked for, and entered again from another; an unknown name
is asked for in between. -/
theorem interning_lawful_buffers :
    let calls : List TableCall :=
      [.intern ⟨16, "Main"⟩, .lookup "Main", .lookup "x", .intern ⟨32, "Main"⟩]
    Slice.Apart (⟨0, Known.self⟩ :: ⟨4, Known.selfType⟩ :: TableCall.slices calls) ∧
      SliceTable.interner.symbols (.initial 0 4) calls =
        [⟨16, "Main"⟩, ⟨16, "Main"⟩, ⟨16, "Main"⟩] ∧
      SliceTable.interner.Lawful (.initial 0 4) calls ∧
      NameTable.interner.Lawful .initial calls :=
  ⟨by decide, by decide, (interning_lawful 0 4 _ (by decide)).1,
    (interning_lawful 0 4 _ (by decide)).2.1⟩

end SelfTyped
