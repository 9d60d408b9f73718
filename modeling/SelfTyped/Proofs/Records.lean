/-
SelfTyped.Proofs.Records — reading undoes writing, for records.

A record is described by slots: a field, what is written for it, and what is
read from it.  If each slot by itself is read back (`Slot.Holds`) and no key
is used twice, the record is (`fill_recordOf`).  So a record with many fields
needs no more than its list of slots.

Readers do not see JSON values but nodes, and there are two kinds of these:
complete values and drafts.  Both show a value without faults as it is
(`Shows`), so what is read back is shown once for both.
-/
import Mathlib.Data.List.Basic
import SelfTyped.Proofs.JsonText
import SelfTyped.Source.Printer

namespace SelfTyped

namespace Source

open Json (Draft)

variable {δ α : Type}

/-! ## Slots -/

/-- A field with what is written for it and what is read from it. -/
structure Slot (δ : Type) where
  field : Field δ
  cell : Option Json
  value : Option Value

namespace Slot

/-- The key of a slot. -/
def key (slot : Slot δ) : String :=
  slot.field.key

/-- What is written for a slot, under its key. -/
def written? (slot : Slot δ) : Option (String × Json) :=
  slot.cell.map (slot.field.key, ·)

/-- What is read from a slot, under its key. -/
def filled? (slot : Slot δ) : Option (String × Value) :=
  slot.value.map (slot.field.key, ·)

/-- What is written is read back. -/
def Holds (embed : Json → δ) (slot : Slot δ) : Prop :=
  Option.Rel (fun j value => slot.field.read (embed j) = .ok value) slot.cell slot.value

end Slot

/-- The record that is written for slots. -/
def recordOf (slots : List (Slot δ)) : Json :=
  record (slots.map fun slot => (slot.key, slot.cell))

/-- What is read from the record of slots. -/
def filledBy (slots : List (Slot δ)) : Filled where
  values := slots.filterMap Slot.filled?
  missing key := .mismatch (.missingField key)

variable {slots : List (Slot δ)}

theorem recordOf_eq (slots : List (Slot δ)) :
    recordOf slots = .object (slots.filterMap Slot.written?) := by
  rw [recordOf, record, List.filterMap_map]
  rfl

/-- A field is found by its key. -/
theorem find_slot (distinct : (slots.map Slot.key).Nodup) {slot : Slot δ} (mem : slot ∈ slots) :
    (slots.map Slot.field).find? (fun field => field.key == slot.key) = some slot.field := by
  induction slots with
  | nil => exact absurd mem List.not_mem_nil
  | cons first slots ih =>
    rw [List.map_cons, List.nodup_cons] at distinct
    rcases List.mem_cons.mp mem with rfl | mem
    · exact List.find?_cons_of_pos (beq_self_eq_true _)
    · have other : (first.field.key == slot.key) = false := by
        rw [beq_eq_false_iff_ne]
        exact fun same => distinct.1 (List.mem_map.mpr ⟨slot, mem, same.symm⟩)
      rw [List.map_cons, List.find?_cons, other]
      exact ih distinct.2 mem

theorem toJson_ne_null : ∀ e : Expr, e.toJson ≠ .null
  | ⟨_, _⟩ => Json.noConfusion

/-! ## Nodes that show values -/

/-- Nodes that show a JSON value as it is. -/
structure Shows [Node δ] (embed : Json → δ) : Prop where
  null : Node.shape (embed .null) = .ok (.scalar .null)
  bool (value : Bool) : Node.shape (embed (.bool value)) = .ok (.scalar (.bool value))
  number (value : Json.Number) :
    Node.shape (embed (.number value)) = .ok (.scalar (.ofNumber value))
  string (value : String) : Node.shape (embed (.string value)) = .ok (.scalar (.string value))
  array (items : List Json) :
    Node.shape (embed (.array items)) = .ok (.sequence (items.map fun item => .ok (embed item)))
  object (entries : List (String × Json)) :
    Node.shape (embed (.object entries)) =
      .ok (.mapping (entries.map fun entry => .ok (entry.1, embed entry.2)))
  buffer (j : Json) : Node.buffer (embed j) = .ok j

/-- Complete values show themselves. -/
theorem shows_json : Shows (id : Json → Json) where
  null := rfl
  bool _ := rfl
  number _ := rfl
  string _ := rfl
  array _ := rfl
  object _ := rfl
  buffer _ := rfl

/-- The draft of a value shows the value. -/
theorem shows_draft : Shows Draft.ofJson where
  null := rfl
  bool _ := rfl
  number _ := rfl
  string _ := rfl
  array items := by
    show Except.ok (Shape.sequence
      ((Draft.ofItems items).map Except.ok ++ DraftNode.ending true)) = _
    rw [DraftNode.ending, if_pos rfl, List.append_nil, Draft.ofItems_eq, List.map_map]
    rfl
  object entries := by
    show Except.ok (Shape.mapping
      ((Draft.ofEntries entries).map DraftNode.entry ++ DraftNode.ending true)) = _
    rw [DraftNode.ending, if_pos rfl, List.append_nil, Draft.ofEntries_eq, List.map_map]
    rfl
  buffer j := by
    simp only [Node.buffer, Draft.toJson?_ofJson]

variable [Node δ] {embed : Json → δ} (shows : Shows embed)

include shows

/-! ## Fields -/

theorem readText_string (value : String) : readText (embed (.string value)) = .ok value := by
  rw [readText, shows.string]
  rfl

theorem readLiteral_integer {value : Int}
    (inRange : -literalBound ≤ value ∧ value < literalBound) :
    readLiteral (embed (.number (.integer value))) = .ok value := by
  rw [readLiteral, shows.number]
  exact if_pos inRange

theorem readLine_integer (line : Nat) :
    readLine (embed (.number (.integer line))) = .ok line := by
  rw [readLine, shows.number]
  simp [Found.ofNumber, bind, Except.bind]

theorem readOptional_value {read : δ → Except Fault α} {j : Json} {a : α} (notNull : j ≠ .null)
    (reads : read (embed j) = .ok a) : readOptional read (embed j) = .ok (some a) := by
  have lifted : some <$> read (embed j) = .ok (some a) := by
    rw [reads]
    rfl
  rw [readOptional]
  cases j with
  | null => exact absurd rfl notNull
  | bool value =>
    rw [shows.bool]
    exact lifted
  | number value =>
    rw [shows.number]
    cases value <;> exact lifted
  | string value =>
    rw [shows.string]
    exact lifted
  | array items =>
    rw [shows.array]
    exact lifted
  | object entries =>
    rw [shows.object]
    exact lifted

theorem readItems_array {read : δ → Except Fault α} {write : α → Json} {items : List α}
    (each : ∀ item ∈ items, read (embed (write item)) = .ok item) :
    readItems read (embed (.array (items.map write))) = .ok items := by
  rw [readItems, shows.array]
  show List.mapM _ _ = _
  induction items with
  | nil => rfl
  | cons item items ih =>
    rw [List.forall_mem_cons] at each
    simp only [List.map_cons, List.mapM_cons, ih each.2]
    show (read (embed (write item)) >>= _) = _
    rw [each.1]
    rfl

namespace Slot

omit shows

/-- A field that has to be there. -/
def required (wrap : α → Value) (read : δ → Except Fault α) (write : α → Json) (key : String)
    (a : α) : Slot δ :=
  ⟨⟨key, fun node => wrap <$> read node⟩, some (write a), some (wrap a)⟩

/-- A field that may be left out. -/
def optional (wrap : α → Value) (read : δ → Except Fault α) (write : α → Json) (key : String)
    (a : Option α) : Slot δ :=
  ⟨⟨key, fun node => Field.optional wrap <$> readOptional read node⟩, a.map write, a.map wrap⟩

/-- A field that is a string. -/
def text (key value : String) : Slot δ :=
  required .text readText .string key value

/-- A field that is a string or left out. -/
def textOrNull (key : String) (value : Option String) : Slot δ :=
  optional .text readText .string key value

/-- The line of a record. -/
def line (line : Option Nat) : Slot δ :=
  optional .line readLine (fun number => .number (.integer number)) "line" line

/-- A field that is an expression. -/
def expr (read : δ → Except Fault Expr) (key : String) (e : Expr) : Slot δ :=
  required .expr read Expr.toJson key e

/-- A field that is an expression or left out. -/
def exprOrNull (read : δ → Except Fault Expr) (key : String) (e : Option Expr) : Slot δ :=
  optional .expr read Expr.toJson key e

/-- A field that is an array. -/
def items (wrap : List α → Value) (read : δ → Except Fault α) (write : α → Json) (key : String)
    (items : List α) : Slot δ :=
  required wrap (readItems read) (fun items => .array (items.map write)) key items

variable {wrap : α → Value} {read : δ → Except Fault α} {write : α → Json} {key : String}

omit [Node δ] in
theorem holds_required {a : α} (reads : read (embed (write a)) = .ok a) :
    (required wrap read write key a).Holds embed := by
  refine .some ?_
  show wrap <$> read (embed (write a)) = _
  rw [reads]
  rfl

include shows

theorem holds_optional {a : Option α} (notNull : ∀ a, write a ≠ .null)
    (reads : ∀ value ∈ a, read (embed (write value)) = .ok value) :
    (optional wrap read write key a).Holds embed := by
  cases a with
  | none => exact .none
  | some a =>
    refine .some ?_
    show Field.optional wrap <$> readOptional read (embed (write a)) = _
    rw [readOptional_value shows (notNull a) (reads a rfl)]
    rfl

theorem holds_text (key value : String) : (text key value : Slot δ).Holds embed :=
  holds_required (readText_string shows value)

theorem holds_textOrNull (key : String) (value : Option String) :
    (textOrNull key value : Slot δ).Holds embed :=
  holds_optional shows (fun _ => Json.noConfusion) fun value _ => readText_string shows value

theorem holds_line (number : Option Nat) : (line number : Slot δ).Holds embed :=
  holds_optional shows (fun _ => Json.noConfusion) fun number _ => readLine_integer shows number

theorem holds_exprOrNull {read : δ → Except Fault Expr} {e : Option Expr}
    (reads : ∀ value ∈ e, read (embed value.toJson) = .ok value) :
    (exprOrNull read key e).Holds embed :=
  holds_optional shows toJson_ne_null reads

theorem holds_items {wrap : List α → Value} {items : List α}
    (each : ∀ item ∈ items, read (embed (write item)) = .ok item) :
    (Slot.items wrap read write key items).Holds embed :=
  holds_required (readItems_array shows each)

end Slot

/-! ## Records -/

omit shows in
/-- Reading goes past one slot after the other. -/
theorem fillMapping_slots {fields : List (Field δ)}
    (known : ∀ slot ∈ slots,
      fields.find? (fun field => field.key == slot.key) = some slot.field)
    (holds : ∀ slot ∈ slots, slot.Holds embed) (distinct : (slots.map Slot.key).Nodup)
    (values : List (String × Value))
    (fresh : ∀ slot ∈ slots, ∀ value ∈ values, value.1 ≠ slot.key) :
    Record.fillMapping fields
        ((slots.filterMap Slot.written?).map fun entry => .ok (entry.1, embed entry.2)) values =
      .ok (values ++ slots.filterMap Slot.filled?) := by
  induction slots generalizing values with
  | nil => exact congrArg Except.ok (List.append_nil values).symm
  | cons slot slots ih =>
    rw [List.map_cons, List.nodup_cons] at distinct
    rw [List.forall_mem_cons] at known holds fresh
    obtain ⟨⟨fieldKey, read⟩, cell, value⟩ := slot
    cases holds.1 with
    | none => exact ih known.2 holds.2 distinct.2 values fresh.2
    | @some j value reads =>
      have unread : (values.any fun known => known.1 == fieldKey) = false := by
        rw [List.any_eq_false]
        intro value mem
        rw [beq_iff_eq]
        exact fresh.1 value mem
      have fresh' : ∀ slot ∈ slots, ∀ value' ∈ values ++ [(fieldKey, value)],
          value'.1 ≠ slot.key := by
        intro slot mem value' mem'
        rcases List.mem_append.mp mem' with mem' | mem'
        · exact fresh.2 slot mem value' mem'
        · rw [List.mem_singleton.mp mem']
          exact fun same => distinct.1 (List.mem_map.mpr ⟨slot, mem, same.symm⟩)
      have later := ih known.2 holds.2 distinct.2 _ fresh'
      rw [List.append_assoc] at later
      have found : fields.find? (fun field => field.key == fieldKey) = some ⟨fieldKey, read⟩ :=
        known.1
      show Record.fillMapping fields (.ok (fieldKey, embed j) :: _) values = _
      rw [Record.fillMapping]
      simp only [bind, Except.bind, found, unread]
      rw [show read (embed j) = .ok value from reads]
      exact later

/-- **A record is read back if its slots are**, and what is then done with its fields gets what
the slots say. -/
theorem fill_recordOf {title : String} {expected : Expected} {next : Filled → Except Fault α}
    (holds : slots.Forall (Slot.Holds embed)) (distinct : (slots.map Slot.key).Nodup) :
    (Record.fill ⟨title, slots.map Slot.field⟩ expected (embed (recordOf slots)) >>= next) =
      next (filledBy slots) := by
  have read := fillMapping_slots (fun _ mem => find_slot distinct mem)
    (List.forall_iff_forall_mem.mp holds) distinct [] (fun _ _ _ mem => absurd mem List.not_mem_nil)
  rw [Record.fill, recordOf_eq, shows.object]
  simp only [bind, Except.bind, read]
  rfl

theorem read_recordOf {title : String} {next : Filled → Except Fault α}
    (holds : slots.Forall (Slot.Holds embed)) (distinct : (slots.map Slot.key).Nodup) :
    (Record.read ⟨title, slots.map Slot.field⟩ (embed (recordOf slots)) >>= next) =
      next (filledBy slots) :=
  fill_recordOf shows holds distinct

end Source

end SelfTyped
