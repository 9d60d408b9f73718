/-
SelfTyped.Proofs.ReadParts — what was looked at when a reading succeeded.

Readers stop at the first fault, so from a result one can go back to what
was read: every part was free of faults, and every value of a record was read
by its field from a part of the node (`fill_part`).  The lemmas say this for
each way in which a reader takes a node apart: an array of items
(`readItems_eq_ok_iff`), a record written as an object or as an array
(`fill_eq_ok`), and the entries of an expression (`splitEntries_eq_ok_iff`).

For records that are objects the statement is about the set of entries and not
about their order.  The other direction needs that no key is used twice, and is
only about success (`fillMapping_of_passes`): what is read is known already.
-/
import Mathlib.Data.List.Forall2
import Mathlib.Data.List.Nodup
import SelfTyped.Proofs.Records
import SelfTyped.Source.Reader

namespace SelfTyped

namespace Source

open Json (Draft)

variable {α β δ ε : Type}

/-! ## Outcomes -/

theorem bind_eq_ok {x : Except ε α} {f : α → Except ε β} {b : β} :
    (x >>= f) = .ok b ↔ ∃ a, x = .ok a ∧ f a = .ok b := by
  cases x <;> simp [bind, Except.bind]

theorem map_eq_ok {x : Except ε α} {f : α → β} {b : β} :
    (f <$> x) = .ok b ↔ ∃ a, x = .ok a ∧ f a = b := by
  cases x <;> simp [Functor.map, Except.map]

theorem mapM_eq_ok_iff {read : α → Except ε β} {items : List α} {values : List β} :
    items.mapM read = .ok values ↔
      List.Forall₂ (fun item value => read item = .ok value) items values := by
  induction items generalizing values with
  | nil =>
    rw [List.mapM_nil, List.forall₂_nil_left_iff]
    exact ⟨fun is => (Except.ok.inj is).symm, congrArg Except.ok ∘ Eq.symm⟩
  | cons item items ih =>
    rw [List.mapM_cons, bind_eq_ok, List.forall₂_cons_left_iff]
    constructor
    · rintro ⟨value, first, others⟩
      obtain ⟨rest, others, is⟩ := bind_eq_ok.mp others
      exact ⟨value, rest, first, ih.mp others, (Except.ok.inj is).symm⟩
    · rintro ⟨value, rest, first, others, rfl⟩
      exact ⟨value, first, bind_eq_ok.mpr ⟨rest, ih.mpr others, rfl⟩⟩

/-- Parts that are read are parts without faults. -/
theorem forall₂_bind_iff {read : α → Except ε β} {parts : List (Except ε α)} {values : List β} :
    List.Forall₂ (fun part value => (part >>= read) = .ok value) parts values ↔
      ∃ items, parts = items.map .ok ∧
        List.Forall₂ (fun item value => read item = .ok value) items values := by
  constructor
  · intro each
    induction each with
    | nil => exact ⟨[], rfl, .nil⟩
    | cons first _ ih =>
      obtain ⟨items, rfl, others⟩ := ih
      obtain ⟨item, rfl, reads⟩ := bind_eq_ok.mp first
      exact ⟨item :: items, rfl, .cons reads others⟩
  · rintro ⟨items, rfl, each⟩
    exact List.forall₂_map_left_iff.mpr each

/-- What stands on the right stands beside something on the left. -/
theorem exists_mem_of_forall₂ {R : α → β → Prop} {as : List α} {bs : List β}
    (each : List.Forall₂ R as bs) {b : β} (mem : b ∈ bs) : ∃ a ∈ as, R a b := by
  induction each with
  | nil => exact absurd mem List.not_mem_nil
  | cons first _ ih =>
    rcases List.mem_cons.mp mem with rfl | mem
    · exact ⟨_, List.mem_cons_self, first⟩
    · obtain ⟨a, ha, holds⟩ := ih mem
      exact ⟨a, List.mem_cons_of_mem _ ha, holds⟩

theorem exists_forall₂ {R : α → β → Prop} {as : List α} (each : ∀ a ∈ as, ∃ b, R a b) :
    ∃ bs, List.Forall₂ R as bs := by
  induction as with
  | nil => exact ⟨[], .nil⟩
  | cons a as ih =>
    rw [List.forall_mem_cons] at each
    obtain ⟨b, first⟩ := each.1
    obtain ⟨bs, others⟩ := ih each.2
    exact ⟨b :: bs, .cons first others⟩

variable [Node δ]

/-! ## Nodes -/

/-- A node has another one directly inside it. -/
inductive PartOf (part node : δ) : Prop
  | item {parts : List (Except Fault δ)} (shape : Node.shape node = .ok (.sequence parts))
    (mem : .ok part ∈ parts)
  | entry {entries : List (Except Fault (String × δ))} {key : String}
    (shape : Node.shape node = .ok (.mapping entries)) (mem : .ok (key, part) ∈ entries)

section Drafts

variable {α : Type} {closed : Bool}

theorem ok_not_mem_ending (a : α) : Except.ok a ∉ DraftNode.ending closed := by
  rw [DraftNode.ending]
  split
  · exact List.not_mem_nil
  · intro mem
    cases List.mem_singleton.mp mem

theorem ok_mem_sequence {items : List Draft} {part : Draft} :
    .ok part ∈ items.map Except.ok ++ DraftNode.ending closed ↔ part ∈ items := by
  rw [List.mem_append, or_iff_left (ok_not_mem_ending part)]
  exact List.mem_map_of_injective fun _ _ => Except.ok.inj

theorem ok_mem_mapping {entries : List (Option String × Draft)} {key : String} {part : Draft} :
    .ok (key, part) ∈ entries.map DraftNode.entry ++ DraftNode.ending closed ↔
      (some key, part) ∈ entries := by
  rw [List.mem_append, or_iff_left (ok_not_mem_ending _), List.mem_map]
  constructor
  · rintro ⟨⟨- | key', part'⟩, mem, is⟩
    · cases is
    · cases is
      exact mem
  · exact fun mem => ⟨_, mem, rfl⟩

/-- A draft has a complete value only as the draft of the value. -/
theorem buffer_eq_ok {draft : Draft} {j : Json} (is : Node.buffer draft = .ok j) :
    draft = .ofJson j := by
  simp only [Node.buffer] at is
  split at is
  · next found => exact Draft.eq_ofJson (found.trans (congrArg some (Except.ok.inj is)))
  · cases is

/-- An array shows no fault if it is closed. -/
theorem sequence_intact {items items' : List Draft}
    (intact : items.map Except.ok ++ DraftNode.ending closed = items'.map Except.ok) :
    closed = true ∧ items' = items := by
  cases closed with
  | false =>
    have fault : .error .malformed ∈ items'.map (Except.ok : Draft → Except Fault Draft) :=
      intact ▸ List.mem_append_right _ (List.mem_singleton_self _)
    obtain ⟨_, -, ⟨⟩⟩ := List.mem_map.mp fault
  | true =>
    rw [DraftNode.ending, if_pos rfl, List.append_nil] at intact
    exact ⟨rfl, List.map_injective_iff.mpr (fun _ _ => Except.ok.inj) intact.symm⟩

/-- Entries with keys that can be read. -/
def keyed (cells : List (String × Draft)) : List (Option String × Draft) :=
  cells.map fun cell => (some cell.1, cell.2)

/-- The entries that an object shows if it is closed and its keys can be read. -/
theorem mapping_keyed (cells : List (String × Draft)) :
    (keyed cells).map DraftNode.entry ++ DraftNode.ending true = cells.map Except.ok := by
  rw [DraftNode.ending, if_pos rfl, List.append_nil, keyed, List.map_map]
  rfl

/-- An object shows a fault if it is not closed, or if a key cannot be read. -/
theorem mapping_intact {entries : List (Option String × Draft)} {cells : List (String × Draft)}
    (intact : entries.map DraftNode.entry ++ DraftNode.ending closed = cells.map Except.ok) :
    closed = true ∧ entries = keyed cells := by
  cases closed with
  | false =>
    have fault : .error .malformed ∈
        cells.map (Except.ok : String × Draft → Except Fault (String × Draft)) :=
      intact ▸ List.mem_append_right _ (List.mem_singleton_self _)
    obtain ⟨_, -, ⟨⟩⟩ := List.mem_map.mp fault
  | true =>
    rw [DraftNode.ending, if_pos rfl, List.append_nil] at intact
    refine ⟨rfl, ?_⟩
    induction entries generalizing cells with
    | nil =>
      rw [List.map_eq_nil_iff.mp intact.symm]
      rfl
    | cons entry entries ih =>
      obtain _ | ⟨cell, cells⟩ := cells
      · cases intact
      · obtain ⟨first, others⟩ := List.cons.inj intact
        obtain ⟨- | key, value⟩ := entry
        · cases first
        · cases first
          rw [keyed, List.map_cons, ih others]
          rfl

end Drafts

theorem readItems_eq_ok_iff {read : δ → Except Fault α} {node : δ} {values : List α} :
    readItems read node = .ok values ↔
      ∃ items : List δ, Node.shape node = .ok (.sequence (items.map .ok)) ∧
        List.Forall₂ (fun item value => read item = .ok value) items values := by
  rw [readItems, bind_eq_ok]
  constructor
  · rintro ⟨shape, shown, is⟩
    cases shape with
    | sequence parts =>
      obtain ⟨items, rfl, each⟩ := forall₂_bind_iff.mp (mapM_eq_ok_iff.mp is)
      exact ⟨items, shown, each⟩
    | scalar | mapping => cases is
  · rintro ⟨items, shown, each⟩
    exact ⟨_, shown, mapM_eq_ok_iff.mpr (forall₂_bind_iff.mpr ⟨items, rfl, each⟩)⟩

theorem readOptional_eq_ok_iff {read : δ → Except Fault α} {node : δ} {value : Option α} :
    readOptional read node = .ok value ↔
      Node.shape node = .ok (.scalar .null) ∧ value = none ∨
        (∃ shape, Node.shape node = .ok shape ∧ shape ≠ .scalar .null) ∧
          ∃ a, read node = .ok a ∧ value = some a := by
  rw [readOptional, bind_eq_ok]
  constructor
  · rintro ⟨shape, shown, is⟩
    split at is
    · exact .inl ⟨shown, (Except.ok.inj is).symm⟩
    · next notNull =>
      obtain ⟨a, reads, rfl⟩ := map_eq_ok.mp is
      exact .inr ⟨⟨shape, shown, notNull⟩, a, reads, rfl⟩
  · rintro (⟨shown, rfl⟩ | ⟨⟨shape, shown, notNull⟩, a, reads, rfl⟩)
    · exact ⟨_, shown, rfl⟩
    · refine ⟨shape, shown, ?_⟩
      split
      · exact absurd rfl notNull
      · exact map_eq_ok.mpr ⟨a, reads, rfl⟩

/-! ## Records -/

section Records

variable {fields : List (Field δ)} {values result : List (String × Value)} {key : String}
  {node : δ} {value : Value}

omit [Node δ] in
/-- An entry is read, by the field of its key. -/
def Yields (fields : List (Field δ)) (key : String) (node : δ) (value : Value) : Prop :=
  ∃ field, fields.find? (fun field => field.key == key) = some field ∧
    field.read node = .ok value

/-- An entry does not stop the reading of a record: it is read, or passed over. -/
def Passes (fields : List (Field δ)) (key : String) (node : δ) : Prop :=
  fields.find? (fun field => field.key == key) = none ∧ Node.skip node = .ok () ∨
    ∃ value, Yields fields key node value

theorem fillMapping_eq_ok {entries : List (Except Fault (String × δ))}
    (filled : Record.fillMapping fields entries values = .ok result) :
    ∃ cells : List (String × δ), entries = cells.map .ok ∧
      (∀ cell ∈ cells, Passes fields cell.1 cell.2) ∧
      ((values.map Prod.fst).Nodup → (result.map Prod.fst).Nodup) ∧
      ∀ entry, entry ∈ result ↔
        entry ∈ values ∨ ∃ node, (entry.1, node) ∈ cells ∧ Yields fields entry.1 node entry.2 := by
  induction entries generalizing values with
  | nil =>
    cases filled
    exact ⟨[], rfl, fun cell mem => absurd mem List.not_mem_nil, id, by simp⟩
  | cons part entries ih =>
    rw [Record.fillMapping] at filled
    obtain ⟨⟨key, node⟩, rfl, goesOn⟩ := bind_eq_ok.mp filled
    dsimp only at goesOn
    split at goesOn
    · next unknown =>
      obtain ⟨⟨⟩, skipped, others⟩ := bind_eq_ok.mp goesOn
      obtain ⟨cells, rfl, passes, distinct, mem_iff⟩ := ih others
      refine ⟨(key, node) :: cells, rfl,
        List.forall_mem_cons.mpr ⟨.inl ⟨unknown, skipped⟩, passes⟩, distinct, fun entry => ?_⟩
      rw [mem_iff]
      refine or_congr_right (exists_congr fun node' => ?_)
      constructor
      · rintro ⟨mem, yields⟩
        exact ⟨List.mem_cons_of_mem _ mem, yields⟩
      · rintro ⟨mem, yields⟩
        rcases List.mem_cons.mp mem with same | mem
        · obtain ⟨field, found, -⟩ := yields
          rw [(Prod.mk.inj same).1, unknown] at found
          cases found
        · exact ⟨mem, yields⟩
    · next field found =>
      split at goesOn
      · cases goesOn
      · next fresh =>
        obtain ⟨value, reads, others⟩ := bind_eq_ok.mp goesOn
        obtain ⟨cells, rfl, passes, distinct, mem_iff⟩ := ih others
        have yields : Yields fields key node value := ⟨field, found, reads⟩
        have absent : key ∉ values.map Prod.fst := by
          intro mem
          obtain ⟨entry, hentry, same⟩ := List.mem_map.mp mem
          exact fresh (List.any_eq_true.mpr ⟨entry, hentry, beq_iff_eq.mpr same⟩)
        refine ⟨(key, node) :: cells, rfl,
          List.forall_mem_cons.mpr ⟨.inr ⟨value, yields⟩, passes⟩, ?_, fun entry => ?_⟩
        · intro nodup
          refine distinct ?_
          rw [List.map_append, List.map_singleton, ← List.concat_eq_append]
          exact List.Nodup.concat absent nodup
        · rw [mem_iff, List.mem_append, List.mem_singleton, or_assoc]
          refine or_congr_right ?_
          constructor
          · rintro (rfl | ⟨node', mem, yields'⟩)
            · exact ⟨node, List.mem_cons_self, yields⟩
            · exact ⟨node', List.mem_cons_of_mem _ mem, yields'⟩
          · rintro ⟨node', mem, yields'⟩
            rcases List.mem_cons.mp mem with same | mem
            · obtain ⟨rfl, rfl⟩ := Prod.mk.inj same
              obtain ⟨field', found', reads'⟩ := yields'
              rw [found, Option.some.injEq] at found'
              rw [← found', reads, Except.ok.injEq] at reads'
              exact .inl (Prod.ext rfl reads'.symm)
            · exact .inr ⟨node', mem, yields'⟩

theorem fillMapping_of_passes {cells : List (String × δ)}
    (passes : ∀ cell ∈ cells, Passes fields cell.1 cell.2)
    (distinct : (cells.map Prod.fst).Nodup) (values : List (String × Value))
    (fresh : ∀ cell ∈ cells, ∀ value ∈ values, value.1 ≠ cell.1) :
    ∃ result, Record.fillMapping fields (cells.map .ok) values = .ok result := by
  induction cells generalizing values with
  | nil => exact ⟨values, rfl⟩
  | cons cell cells ih =>
    obtain ⟨key, node⟩ := cell
    rw [List.map_cons, List.nodup_cons] at distinct
    rw [List.forall_mem_cons] at passes fresh
    rcases passes.1 with ⟨unknown, skipped⟩ | ⟨value, field, found, reads⟩
    · obtain ⟨result, filled⟩ := ih passes.2 distinct.2 values fresh.2
      refine ⟨result, ?_⟩
      rw [List.map_cons, Record.fillMapping]
      simp only [bind, Except.bind, unknown, skipped]
      exact filled
    · have unread : (values.any fun known => known.1 == key) = false := by
        rw [List.any_eq_false]
        intro value mem
        rw [beq_iff_eq]
        exact fresh.1 value mem
      have fresh' : ∀ cell ∈ cells, ∀ value' ∈ values ++ [(key, value)], value'.1 ≠ cell.1 := by
        intro cell mem value' mem'
        rcases List.mem_append.mp mem' with mem' | mem'
        · exact fresh.2 cell mem value' mem'
        · rw [List.mem_singleton.mp mem']
          exact fun same => distinct.1 (List.mem_map.mpr ⟨cell, mem, same.symm⟩)
      obtain ⟨result, filled⟩ := ih passes.2 distinct.2 _ fresh'
      refine ⟨result, ?_⟩
      rw [List.map_cons, Record.fillMapping]
      simp only [bind, Except.bind, found, unread, reads]
      exact filled

omit [Node δ] in
theorem fillSequence_eq_ok_iff {surplus : Fault} {parts : List (Except Fault δ)} :
    Record.fillSequence surplus fields parts = .ok values ↔
      ∃ items, parts = items.map .ok ∧ items.length ≤ fields.length ∧
        List.Forall₂ (fun pair value => pair.1.key = value.1 ∧ pair.1.read pair.2 = .ok value.2)
          (fields.zip items) values := by
  induction fields generalizing parts values with
  | nil =>
    cases parts with
    | nil =>
      rw [Record.fillSequence]
      constructor
      · rintro ⟨⟩
        exact ⟨[], rfl, Nat.le_refl _, .nil⟩
      · rintro ⟨items, is, -, each⟩
        rw [List.zip_nil_left, List.forall₂_nil_left_iff] at each
        rw [each]
    | cons part parts =>
      rw [Record.fillSequence]
      constructor
      · rintro ⟨⟩
      · rintro ⟨items, is, short, -⟩
        rw [List.length_nil, Nat.le_zero, List.length_eq_zero_iff] at short
        rw [short] at is
        cases is
  | cons field fields ih =>
    cases parts with
    | nil =>
      rw [Record.fillSequence]
      constructor
      · rintro ⟨⟩
        exact ⟨[], rfl, Nat.zero_le _, .nil⟩
      · rintro ⟨items, is, -, each⟩
        rw [List.map_eq_nil_iff.mp is.symm, List.zip_nil_right,
          List.forall₂_nil_left_iff] at each
        rw [each]
    | cons part parts =>
      rw [Record.fillSequence]
      simp only [bind_eq_ok]
      constructor
      · rintro ⟨node, rfl, value, reads, rest, filled, is⟩
        obtain ⟨items, rfl, short, each⟩ := ih.mp filled
        cases is
        exact ⟨node :: items, rfl, Nat.succ_le_succ short, .cons ⟨rfl, reads⟩ each⟩
      · rintro ⟨items, is, short, each⟩
        cases items with
        | nil => cases is
        | cons node items =>
          rw [List.map_cons, List.cons.injEq] at is
          rw [List.zip_cons_cons] at each
          obtain ⟨⟨key, value⟩, rest, ⟨named, reads⟩, others, rfl⟩ :=
            List.forall₂_cons_left_iff.mp each
          exact ⟨node, is.1, value, reads, rest,
            ih.mpr ⟨items, is.2, Nat.le_of_succ_le_succ short, others⟩, by rw [named]; rfl⟩

/-- What is read of a record that has a shape. -/
inductive Fills (record : Record δ) : Shape δ → Filled → Prop
  | mapping {cells : List (String × δ)} {values : List (String × Value)}
    (passes : ∀ cell ∈ cells, Passes record.fields cell.1 cell.2)
    (distinct : (values.map Prod.fst).Nodup)
    (mem_iff : ∀ entry, entry ∈ values ↔
      ∃ node, (entry.1, node) ∈ cells ∧ Yields record.fields entry.1 node entry.2) :
    Fills record (.mapping (cells.map .ok)) ⟨values, fun key => .mismatch (.missingField key)⟩
  | sequence {items : List δ} {values : List (String × Value)}
    (short : items.length ≤ record.fields.length)
    (each : List.Forall₂
      (fun pair value => pair.1.key = value.1 ∧ pair.1.read pair.2 = .ok value.2)
      (record.fields.zip items) values) :
    Fills record (.sequence (items.map .ok)) ⟨values, record.endsBefore⟩

variable {record : Record δ} {expected : Expected} {filled : Filled}

theorem fill_eq_ok (read : record.fill expected node = .ok filled) :
    ∃ shape, Node.shape node = .ok shape ∧ Fills record shape filled := by
  rw [Record.fill] at read
  obtain ⟨shape, shown, read⟩ := bind_eq_ok.mp read
  refine ⟨shape, shown, ?_⟩
  cases shape with
  | scalar => cases read
  | mapping entries =>
    obtain ⟨values, filledBy, is⟩ := bind_eq_ok.mp read
    obtain ⟨cells, rfl, passes, distinct, mem_iff⟩ := fillMapping_eq_ok filledBy
    cases is
    refine .mapping passes (distinct List.nodup_nil) fun entry => ?_
    rw [mem_iff]
    simp
  | sequence items =>
    obtain ⟨values, filledBy, is⟩ := bind_eq_ok.mp read
    obtain ⟨items, rfl, short, each⟩ := fillSequence_eq_ok_iff.mp filledBy
    cases is
    exact .sequence short each

theorem mem_of_get? (found : filled.get? key = some value) : (key, value) ∈ filled.values := by
  obtain ⟨before, after, split, -⟩ := List.lookup_eq_some_iff.mp found
  rw [split]
  exact List.mem_append_right _ List.mem_cons_self

/-- **What a record holds was read by the field of its key from a part of the node.** -/
theorem fill_part (read : record.fill expected node = .ok filled)
    (found : filled.get? key = some value) :
    ∃ field ∈ record.fields, field.key = key ∧
      ∃ part, PartOf part node ∧ field.read part = .ok value := by
  obtain ⟨shape, shown, fills⟩ := fill_eq_ok read
  have mem := mem_of_get? found
  cases fills with
  | mapping passes distinct mem_iff =>
    obtain ⟨part, hpart, field, hfield, reads⟩ := (mem_iff _).mp mem
    have named := List.find?_some (p := fun field : Field δ => field.key == key) hfield
    exact ⟨field, List.mem_of_find?_eq_some hfield, beq_iff_eq.mp named, part,
      .entry shown (List.mem_map_of_mem hpart), reads⟩
  | sequence short each =>
    obtain ⟨⟨field, part⟩, hpair, named, reads⟩ := exists_mem_of_forall₂ each mem
    exact ⟨field, (List.of_mem_zip hpair).1, named, part,
      .item shown (List.mem_map_of_mem (List.of_mem_zip hpair).2), reads⟩

end Records

/-! ## Expressions -/

section Entries

/-- The key of an entry of an expression is the one of its line. -/
def isLine (cell : String × δ) : Bool :=
  cell.1 == "line"

/-- An entry is kept as a complete value. -/
def Buffers (cell : String × δ) (entry : String × Json) : Prop :=
  cell.1 = entry.1 ∧ Node.buffer cell.2 = .ok entry.2

/-- What the lines among some entries add to the line read before, if there is one. -/
def LineRead (cells : List (String × δ)) (before : Option (Option Nat)) (line : Option Nat) :
    Prop :=
  cells = [] ∧ line = before.join ∨
    before = none ∧ ∃ cell, cells = [cell] ∧ readOptional readLine cell.2 = .ok line

theorem splitEntries_eq_ok_iff {entries : List (Except Fault (String × δ))}
    {before : Option (Option Nat)} {line : Option Nat} {kept others : List (String × Json)} :
    splitEntries entries before kept = .ok (line, others) ↔
      ∃ cells : List (String × δ), entries = cells.map .ok ∧
        LineRead (cells.filter isLine) before line ∧
        ∃ more, List.Forall₂ Buffers (cells.filter (!isLine ·)) more ∧ others = kept ++ more := by
  induction entries generalizing before kept with
  | nil =>
    rw [splitEntries]
    constructor
    · rintro ⟨⟩
      exact ⟨[], rfl, .inl ⟨rfl, rfl⟩, [], .nil, (List.append_nil _).symm⟩
    · rintro ⟨cells, is, lineRead, more, each, rfl⟩
      obtain rfl := List.map_eq_nil_iff.mp is.symm
      rw [List.forall₂_nil_left_iff.mp each, List.append_nil]
      rcases lineRead with ⟨-, rfl⟩ | ⟨-, cell, absent, -⟩
      · rfl
      · cases absent
  | cons entry entries ih =>
    rw [splitEntries, bind_eq_ok]
    constructor
    · rintro ⟨⟨key, node⟩, rfl, goesOn⟩
      dsimp only at goesOn
      split at goesOn
      · next named =>
        have named : isLine (key, node) = true := named
        split at goesOn
        · cases goesOn
        · next fresh =>
          obtain ⟨value, reads, goesOn⟩ := bind_eq_ok.mp goesOn
          obtain ⟨cells, rfl, lineRead, more, each, rfl⟩ := ih.mp goesOn
          obtain ⟨single, rfl⟩ | ⟨⟨⟩, -⟩ := lineRead
          refine ⟨(key, node) :: cells, rfl, .inr ⟨?_, (key, node), ?_, reads⟩, more, ?_, rfl⟩
          · exact Option.not_isSome_iff_eq_none.mp fresh
          · rw [List.filter_cons_of_pos named, single]
          · rwa [List.filter_cons_of_neg (by simpa using named)]
      · next other =>
        have other : ¬ isLine (key, node) = true := other
        obtain ⟨value, buffered, goesOn⟩ := bind_eq_ok.mp goesOn
        obtain ⟨cells, rfl, lineRead, more, each, rfl⟩ := ih.mp goesOn
        refine ⟨(key, node) :: cells, rfl, ?_, (key, value) :: more, ?_, ?_⟩
        · rwa [List.filter_cons_of_neg other]
        · rw [List.filter_cons_of_pos (by simpa using other)]
          exact .cons ⟨rfl, buffered⟩ each
        · rw [List.append_assoc, List.singleton_append]
    · rintro ⟨cells, is, lineRead, more, each, rfl⟩
      obtain _ | ⟨cell, cells⟩ := cells
      · cases is
      obtain ⟨rfl, rfl⟩ := List.cons.inj is
      refine ⟨cell, rfl, ?_⟩
      dsimp only
      by_cases named : isLine cell = true
      · rw [List.filter_cons_of_pos named] at lineRead
        rw [List.filter_cons_of_neg (by simpa using named)] at each
        obtain ⟨⟨⟩, -⟩ | ⟨rfl, cell', is, reads⟩ := lineRead
        obtain ⟨rfl, single⟩ := List.cons.inj is
        rw [if_pos (show (cell.1 == "line") = true from named),
          Option.isSome_none, if_neg Bool.false_ne_true]
        exact bind_eq_ok.mpr
          ⟨line, reads, ih.mpr ⟨cells, rfl, .inl ⟨single, rfl⟩, more, each, rfl⟩⟩
      · rw [List.filter_cons_of_neg named] at lineRead
        rw [List.filter_cons_of_pos (by simpa using named)] at each
        obtain ⟨⟨key, value⟩, rest, ⟨same, buffered⟩, others, rfl⟩ :=
          List.forall₂_cons_left_iff.mp each
        obtain rfl : cell.1 = key := same
        rw [if_neg (show ¬ (cell.1 == "line") = true from named)]
        refine bind_eq_ok.mpr ⟨value, buffered, ih.mpr ⟨cells, rfl, lineRead, rest, others, ?_⟩⟩
        rw [List.append_assoc, List.singleton_append]

/-- A kind is found at a key. -/
theorem mem_of_kindEntry? {entries : List (String × Json)} {kind : Kind} {value : Json}
    (found : kindEntry? entries = some (kind, value)) :
    ∃ key, (key, value) ∈ entries ∧ Kind.ofKey? key = some kind := by
  obtain ⟨⟨key, value'⟩, mem, is⟩ := List.exists_of_findSome?_eq_some found
  obtain ⟨kind', named, is⟩ := Option.map_eq_some_iff.mp is
  cases is
  exact ⟨key, mem, named⟩

/-- What an expression is read from: the entries of an object, one of which names its kind. -/
theorem readExprWith_eq_ok_iff {inner : Json → Except Fault Expr} {node : δ} {e : Expr} :
    readExprWith inner node = .ok e ↔
      ∃ (cells : List (String × δ)) (others : List (String × Json)) (kind : Kind) (value : Json),
        Node.shape node = .ok (.mapping (cells.map .ok)) ∧
        LineRead (cells.filter isLine) none e.line ∧
        List.Forall₂ Buffers (cells.filter (!isLine ·)) others ∧
        kindEntry? others = some (kind, value) ∧ readForm inner kind value = .ok e.form := by
  rw [readExprWith, bind_eq_ok]
  constructor
  · rintro ⟨shape, shown, is⟩
    cases shape with
    | scalar | sequence => cases is
    | mapping entries =>
      obtain ⟨⟨line, others⟩, split, goesOn⟩ := bind_eq_ok.mp is
      obtain ⟨cells, rfl, lineRead, others, each, rfl⟩ := splitEntries_eq_ok_iff.mp split
      dsimp only [List.nil_append] at goesOn
      split at goesOn
      · next kind value found =>
        obtain ⟨form, reads, ⟨⟩⟩ := bind_eq_ok.mp goesOn
        exact ⟨cells, others, kind, value, shown, lineRead, each, found, reads⟩
      · cases goesOn
  · rintro ⟨cells, others, kind, value, shown, lineRead, each, found, reads⟩
    obtain ⟨line, form⟩ := e
    refine ⟨_, shown, bind_eq_ok.mpr ⟨(line, others), ?_, ?_⟩⟩
    · exact splitEntries_eq_ok_iff.mpr
        ⟨cells, rfl, lineRead, others, each, (List.nil_append _).symm⟩
    · dsimp only
      rw [found]
      exact bind_eq_ok.mpr ⟨form, reads, rfl⟩

end Entries

/-! ## Texts -/

theorem Program.ofText_eq_ok_iff {text : List Char} {p : Program} :
    Program.ofText text = .ok p ↔
      ∃ draft, Json.WellFormed text draft ∧ readProgram draft = .ok p := by
  rw [Program.ofText]
  constructor
  · intro is
    obtain ⟨p', reads, is⟩ := bind_eq_ok.mp is
    split at is
    · next rest after =>
      split at is
      · next ended =>
        cases is
        exact ⟨_, ⟨rest, Prod.ext rfl after, List.isEmpty_iff.mp ended⟩, reads⟩
      · cases is
    · cases is
  · rintro ⟨draft, ⟨rest, read, ended⟩, reads⟩
    rw [read]
    exact bind_eq_ok.mpr ⟨p, reads, if_pos (List.isEmpty_iff.mpr ended)⟩

/-- Reading succeeds on a text within the limit that is well-formed and whose draft is read. -/
theorem Program.parse_eq_ok_iff {text : String} {maxDepth : Nat} {p : Program} :
    Program.parse text maxDepth = .ok p ↔
      Json.nestingDepth text.toList ≤ Json.nestingLimit maxDepth ∧
        ∃ draft, Json.WellFormed text.toList draft ∧ readProgram draft = .ok p := by
  rw [Program.parse, ← ofText_eq_ok_iff]
  split
  · next deeper =>
    constructor
    · rintro ⟨⟩
    · exact fun within => absurd deeper (Nat.not_lt.mpr within.1)
  · next within =>
    rw [and_iff_right (Nat.not_lt.mp within)]
    cases Program.ofText text.toList <;> simp [Except.mapError]

end Source

end SelfTyped
