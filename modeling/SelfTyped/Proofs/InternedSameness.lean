/-
SelfTyped.Proofs.InternedSameness — comparing programs by their symbols.

Programs in memory are compared symbol by symbol, programs with names text
by text.  As long as different texts have different entries both
comparisons agree.  The symbols of one table are of this kind, and can be
completed to symbols for all texts (`NameTable.exists_spelling`), so what is
known of programs with names holds of programs that were lowered into one
table.
-/
import Mathlib.Logic.Encodable.Basic
import Mathlib.Logic.Equiv.List
import SelfTyped.Proofs.EnteredNames
import SelfTyped.Proofs.ExplicitForms

namespace SelfTyped

theorem Symbol.beq_eq (a b : Symbol) : (a == b) = (a.entry == b.entry) :=
  rfl

namespace Interned

/-- Only expressions of one kind are the same. -/
theorem Form.same_kind {form other : Form} (same : form.same other = true) :
    form.ctorIdx = other.ctorIdx := by
  rw [Form.same.eq_def] at same
  split at same
  case h_19 => exact absurd same Bool.false_ne_true
  all_goals rfl

theorem Form.ofNames_kind (symbolOf : Name → Symbol) (form : SelfTyped.Form) :
    (Form.ofNames symbolOf form).ctorIdx = form.ctorIdx := by
  cases form <;> rfl

/-- Symbols are equal for equal texts only. -/
def Distinct (symbolOf : Name → Symbol) : Prop :=
  ∀ a b, (symbolOf a == symbolOf b) = (a == b)

section

variable {symbolOf : Name → Symbol}

theorem Form.same_ofNames_of_kind_ne {form other : SelfTyped.Form}
    (differ : form.ctorIdx ≠ other.ctorIdx) :
    (Form.ofNames symbolOf form).same (Form.ofNames symbolOf other) = form.same other := by
  have interned : (Form.ofNames symbolOf form).same (Form.ofNames symbolOf other) = false := by
    refine Bool.eq_false_iff.mpr fun same => differ ?_
    rw [← ofNames_kind symbolOf form, same_kind same, ofNames_kind]
  rw [interned]
  exact (Bool.eq_false_iff.mpr fun same => differ (SelfTyped.Form.same_kind same)).symm

/-- Comparing an expression by symbols is comparing it by names. -/
def Alike (symbolOf : Name → Symbol) (e : SelfTyped.Expr) : Prop :=
  ∀ other, (Expr.ofNames symbolOf e).same (Expr.ofNames symbolOf other) = e.same other

theorem sameItems_ofNames {items : List SelfTyped.Expr}
    (each : ∀ item ∈ items, Alike symbolOf item) :
    ∀ others, sameItems (itemsOfNames symbolOf items) (itemsOfNames symbolOf others) =
      SelfTyped.sameItems items others := by
  induction items with
  | nil =>
    intro others
    cases others <;> simp [itemsOfNames, sameItems, SelfTyped.sameItems]
  | cons item items ih =>
    rw [List.forall_mem_cons] at each
    intro others
    cases others with
    | nil => simp [itemsOfNames, sameItems, SelfTyped.sameItems]
    | cons other others =>
      simp [itemsOfNames, sameItems, SelfTyped.sameItems, each.1 other, ih each.2 others]

theorem sameBranches_ofNames (distinct : Distinct symbolOf) {branches : List SelfTyped.Branch}
    (each : ∀ branch ∈ branches, Alike symbolOf branch.body) :
    ∀ others, sameBranches (branchesOfNames symbolOf branches) (branchesOfNames symbolOf others) =
      SelfTyped.sameBranches branches others := by
  induction branches with
  | nil =>
    intro others
    rcases others with _ | ⟨⟨_, _, _, _⟩, _⟩ <;>
      simp [branchesOfNames, sameBranches, SelfTyped.sameBranches]
  | cons branch branches ih =>
    obtain ⟨line, name, type, body⟩ := branch
    rw [List.forall_mem_cons] at each
    intro others
    rcases others with _ | ⟨⟨line', name', type', body'⟩, others⟩
    · simp [branchesOfNames, sameBranches, SelfTyped.sameBranches]
    · simp [branchesOfNames, sameBranches, SelfTyped.sameBranches, distinct _ _, each.1 body',
        ih each.2 others]

theorem Form.same_ofNames (distinct : Distinct symbolOf) {form : SelfTyped.Form}
    (each : ∀ part ∈ form.parts, Alike symbolOf part.expr) (other : SelfTyped.Form) :
    (Form.ofNames symbolOf form).same (Form.ofNames symbolOf other) = form.same other := by
  by_cases kind : form.ctorIdx = other.ctorIdx
  case neg => exact same_ofNames_of_kind_ne kind
  cases form with
  | dispatch receiver method args =>
    have first : Alike symbolOf receiver := each (.plain receiver) (.head _)
    have rest := sameItems_ofNames fun item mem =>
      each (.plain item) (.tail _ (List.mem_map_of_mem mem))
    cases other with
    | dispatch receiver' =>
      simp [ofNames, same, SelfTyped.Form.same, distinct _ _, first receiver', rest]
    | _ => cases kind
  | staticDispatch receiver type method args =>
    have first : Alike symbolOf receiver := each (.plain receiver) (.head _)
    have rest := sameItems_ofNames fun item mem =>
      each (.plain item) (.tail _ (List.mem_map_of_mem mem))
    cases other with
    | staticDispatch receiver' =>
      simp [ofNames, same, SelfTyped.Form.same, distinct _ _, first receiver', rest]
    | _ => cases kind
  | case scrutinee branches =>
    have first : Alike symbolOf scrutinee := each (.plain scrutinee) (.head _)
    have rest := sameBranches_ofNames distinct fun branch mem =>
      each (.ofBranch branch) (.tail _ (List.mem_map_of_mem mem))
    cases other with
    | case scrutinee' => simp [ofNames, same, SelfTyped.Form.same, first scrutinee', rest]
    | _ => cases kind
  | block items =>
    have all := sameItems_ofNames fun item mem => each (.plain item) (List.mem_map_of_mem mem)
    cases other with
    | block => simp [ofNames, same, SelfTyped.Form.same, all]
    | _ => cases kind
  | _ =>
    cases other <;> try (cases kind; done)
    all_goals
      simp_all [ofNames, same, SelfTyped.Form.same, SelfTyped.Form.parts, Alike, distinct _ _]

theorem Expr.same_ofNames (distinct : Distinct symbolOf) (e : SelfTyped.Expr) :
    Alike symbolOf e := by
  induction e using SelfTyped.Expr.parts_induction with
  | step line form ih =>
    intro other
    obtain ⟨line', form'⟩ := other
    rw [ofNames, ofNames, same, SelfTyped.Expr.same, Form.same_ofNames distinct ih form']

/-! ## Declarations -/

theorem sameLists_map {α β : Type} {same : β → β → Bool} {same' : α → α → Bool} {f : α → β}
    (item : ∀ a b, same (f a) (f b) = same' a b) :
    ∀ as bs : List α, sameLists same (as.map f) (bs.map f) = sameLists same' as bs
  | [], [] | [], _ :: _ | _ :: _, [] => rfl
  | a :: as, b :: bs => by simp [sameLists, item, sameLists_map item as bs]

theorem Formal.same_ofNames (distinct : Distinct symbolOf) (a b : SelfTyped.Formal) :
    (Formal.ofNames symbolOf a).same (Formal.ofNames symbolOf b) = a.same b := by
  simp [ofNames, same, SelfTyped.Formal.same, distinct _ _]

theorem Feature.same_ofNames (distinct : Distinct symbolOf) (a b : SelfTyped.Feature) :
    (Feature.ofNames symbolOf a).same (Feature.ofNames symbolOf b) = a.same b := by
  cases a <;> cases b <;>
    simp [ofNames, same, SelfTyped.Feature.same, Attribute.ofNames, Method.ofNames, distinct _ _,
      Expr.same_ofNames distinct _ _, sameLists_map (Formal.same_ofNames distinct)]

theorem Class.same_ofNames (distinct : Distinct symbolOf) (a b : SelfTyped.Class) :
    (Class.ofNames symbolOf a).same (Class.ofNames symbolOf b) = a.same b := by
  simp [ofNames, same, SelfTyped.Class.same, distinct _ _,
    sameLists_map (Feature.same_ofNames distinct)]

/-- Comparing programs by symbols is comparing them by names. -/
theorem Program.same_ofNames (distinct : Distinct symbolOf) (a b : SelfTyped.Program) :
    (Program.ofNames symbolOf a).same (Program.ofNames symbolOf b) = a.same b := by
  simp [ofNames, same, SelfTyped.Program.same, sameLists_map (Class.same_ofNames distinct)]

end

/-! ## Tables -/

/-- Symbols for texts that are in no table: each has an entry of its own past the end. -/
theorem exists_code : ∃ code : Name → Nat, Function.Injective code := by
  refine ⟨fun text => Encodable.encode (text.toList.map Char.toNat), fun a b same => ?_⟩
  have chars := Encodable.encode_injective same
  exact String.toList_inj.mp (List.map_injective_iff.mpr (fun _ _ => Char.toNat_inj.mp) chars)

/-- Texts of one table with one entry are equal. -/
theorem text_eq_of_entry_eq {table : NameTable} {a b : Name} {first second : Symbol}
    (foundFirst : table.lookup? a = some first) (foundSecond : table.lookup? b = some second)
    (same : first.entry = second.entry) : a = b := by
  have firstEntry := NameTable.entry_of_lookup? foundFirst
  have secondEntry := NameTable.entry_of_lookup? foundSecond
  rw [same, secondEntry] at firstEntry
  have texts : second.text = first.text := Option.some.inj firstEntry
  rw [← show first.text = a from NameTable.correct.asked foundFirst, ← texts]
  exact NameTable.correct.asked foundSecond

theorem entry_lt_size {table : NameTable} {text : Name} {symbol : Symbol}
    (found : table.lookup? text = some symbol) : symbol.entry < table.size :=
  (List.getElem?_eq_some_iff.mp (NameTable.entry_of_lookup? found)).1

/-- The symbols of a table can be completed to different symbols for all texts. -/
theorem exists_spelling (table : NameTable) :
    ∃ symbolOf, NameTable.Spelled symbolOf table ∧ Distinct symbolOf := by
  obtain ⟨code, injective⟩ := exists_code
  refine ⟨_, spelled_getD table fun text => ⟨table.size + code text, text⟩, fun a b => ?_⟩
  rw [Symbol.beq_eq, Bool.eq_iff_iff, beq_iff_eq, beq_iff_eq]
  refine ⟨fun entries => ?_, fun same => same ▸ rfl⟩
  cases foundA : table.lookup? a with
  | some first =>
    have inside := entry_lt_size foundA
    cases foundB : table.lookup? b with
    | some second =>
      simp only [foundA, foundB, Option.getD_some] at entries
      exact text_eq_of_entry_eq foundA foundB entries
    | none =>
      simp only [foundA, foundB, Option.getD_some, Option.getD_none] at entries
      omega
  | none =>
    cases foundB : table.lookup? b with
    | some second =>
      have inside := entry_lt_size foundB
      simp only [foundA, foundB, Option.getD_some, Option.getD_none] at entries
      omega
    | none =>
      simp only [foundA, foundB, Option.getD_none] at entries
      exact injective (Nat.add_left_cancel entries)

/-- **Lowering is injective up to defaults and lines.**  Whatever was entered in a table before, and
whatever is entered in between: two programs are lowered into it one after the other, and what they
are lowered to is equal, lines apart, exactly if they have the same explicit form. -/
theorem lowering_injective (earlier between : List Name) (file : String)
    (source other : Source.Program) :
    ∃ p q table later,
      Program.lower? file source (NameTable.initial.internAll earlier) = some (p, table) ∧
        Program.lower? file other (table.internAll between) = some (q, later) ∧
        (p.same q = true ↔ source.explicit file = other.explicit file) := by
  let table := (NameTable.initial.internAll earlier).internProgram file source
  let later := (table.internAll between).internProgram file other
  obtain ⟨symbolOf, spelledLater, distinct⟩ := exists_spelling later
  have spelledBetween : NameTable.Spelled symbolOf (table.internAll between) := spelledLater.before
  have spelled : NameTable.Spelled symbolOf table := spelledBetween.before
  have knowsSelf : Known.self ∈ (NameTable.initial.internAll earlier).entries :=
    NameTable.mem_entries_internAll.mpr (.inl (List.mem_cons_self ..))
  have stillKnows : Known.self ∈ (table.internAll between).entries :=
    NameTable.mem_entries_internAll.mpr
      (.inl (NameTable.mem_entries_internAll.mpr (.inl knowsSelf)))
  refine ⟨_, _, table, later, Program.lower?_eq symbolOf file source knowsSelf spelled,
    Program.lower?_eq symbolOf file other stillKnows spelledLater, ?_⟩
  rw [Program.same_ofNames distinct, Program.same_ofSource_iff]

end Interned

end SelfTyped
