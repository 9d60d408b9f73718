/-
SelfTyped.Proofs.InternedSuggestions — suggestions among the symbols of a table.

Symbols are told apart by their entries in the table.  Those of one table
with the same text are the same, so what is suggested among symbols is what
is suggested among their texts (`text_mostRelated`), and what holds of
suggestions among names holds here (`SuggestionLaws`).
-/
import SelfTyped.Interned.Suggestion
import SelfTyped.Proofs.EditDistance
import SelfTyped.Proofs.InternedSameness
import SelfTyped.Proofs.Suggestions

namespace SelfTyped

namespace Interned

variable {table : NameTable} {symbol : Symbol} {candidates others : List Symbol}

/-- A compared symbol as a compared name. -/
def Suggestion.text (compared : Relation × Symbol) : Relation × Name :=
  (compared.1, compared.2.text)

theorem Suggestion.order_eq_gt (a b : Relation × Symbol) :
    Suggestion.order a b = .gt ↔ SelfTyped.Suggestion.better (text b) (text a) = true := by
  have swapped : (text b).1.order (text a).1 = (a.1.order b.1).swap :=
    (Relation.order_swap a.1 b.1).symm
  rw [Suggestion.order, SelfTyped.Suggestion.better, swapped]
  cases a.1.order b.1 with
  | lt | gt => simp
  | eq =>
    simp only [Ordering.then, Ordering.swap, decide_eq_true_iff]
    exact compare_gt_iff_gt

theorem Suggestion.text_least (best : Option (Relation × Symbol)) (next : Relation × Symbol) :
    (Suggestion.least best next).map text =
      SelfTyped.Suggestion.improve (best.map text) (text next) := by
  cases best with
  | none => rfl
  | some b =>
    simp only [Suggestion.least, Option.map_some, SelfTyped.Suggestion.improve,
      Suggestion.order_eq_gt]
    split <;> rfl

/-- Symbols of one table are the same if their texts are. -/
theorem eq_of_text_eq {other : Symbol} (known : table.lookup? symbol.text = some symbol)
    (knownOther : table.lookup? other.text = some other) (same : other.text = symbol.text) :
    other = symbol := by
  rw [same, known] at knownOther
  exact (Option.some.inj knownOther).symm

/-- Symbols of one table differ by entry exactly if they do by text. -/
theorem bne_eq_text_bne {other : Symbol} (known : table.lookup? symbol.text = some symbol)
    (knownOther : table.lookup? other.text = some other) :
    (other != symbol) = (other.text != symbol.text) := by
  have same : (other.entry == symbol.entry) = (other.text == symbol.text) := by
    rw [Bool.eq_iff_iff, beq_iff_eq, beq_iff_eq]
    constructor
    · exact text_eq_of_entry_eq knownOther known
    · intro texts
      rw [eq_of_text_eq known knownOther texts]
  rw [bne, bne, Symbol.beq_eq, same]

/-- The candidates that may be suggested, each with how close it is. -/
def related (symbol : Symbol) (candidates : List Symbol) : List (Relation × Symbol) :=
  ((candidates.filter fun c => c != symbol).map fun c =>
    (Relation.between symbol.text c.text, c)).filter fun (relation, _) => relation.isRelated

theorem mostRelated_eq_foldl (symbol : Symbol) (candidates : List Symbol) :
    mostRelated symbol candidates =
      ((related symbol candidates).foldl Suggestion.least none).map (·.2) := rfl

theorem text_related (known : ∀ s ∈ symbol :: candidates, table.lookup? s.text = some s) :
    (related symbol candidates).map Suggestion.text =
      ((candidates.map Symbol.text).filter (Suggestible symbol.text ·)).map
        (SelfTyped.Suggestion.compared symbol.text) := by
  rw [related, List.filter_map, List.filter_filter, List.map_map, List.filter_map, List.map_map]
  have same : candidates.filter (fun c =>
      (Relation.between symbol.text c.text).isRelated && c != symbol) =
        candidates.filter fun c => Suggestible symbol.text c.text := by
    refine List.filter_congr fun c mem => ?_
    have differs := bne_eq_text_bne (known symbol List.mem_cons_self)
      (known c (List.mem_cons_of_mem symbol mem))
    rw [Bool.eq_iff_iff, Bool.and_eq_true, differs, bne_iff_ne, Relation.isRelated_between,
      decide_eq_true_iff, and_comm]
    rfl
  exact congrArg _ same

/-- **Symbols are suggested as their texts are**, in one table. -/
theorem text_mostRelated (known : ∀ s ∈ symbol :: candidates, table.lookup? s.text = some s) :
    (mostRelated symbol candidates).map Symbol.text =
      SelfTyped.mostRelated symbol.text (candidates.map Symbol.text) := by
  have folded : ((related symbol candidates).foldl Suggestion.least none).map Suggestion.text =
      ((related symbol candidates).map Suggestion.text).foldl
        SelfTyped.Suggestion.improve none := by
    rw [List.foldl_map]
    exact (List.foldl_hom (Option.map Suggestion.text)
      fun best next => (Suggestion.text_least best next).symm).symm
  rw [SelfTyped.mostRelated_eq_foldl, ← text_related known, ← folded, mostRelated_eq_foldl,
    Option.map_map, Option.map_map]
  rfl

theorem Suggestion.mem_of_foldl_least {compared : List (Relation × Symbol)}
    {best : Option (Relation × Symbol)} {x : Relation × Symbol}
    (found : compared.foldl Suggestion.least best = some x) : x ∈ compared ∨ best = some x := by
  induction compared generalizing best with
  | nil => exact Or.inr found
  | cons next rest ih =>
    rcases ih found with mem | kept
    · exact Or.inl (List.mem_cons_of_mem next mem)
    · cases best with
      | none =>
        rw [Suggestion.least, Option.some.injEq] at kept
        exact Or.inl (kept ▸ List.mem_cons_self)
      | some b =>
        rw [Suggestion.least] at kept
        split at kept
        · rw [Option.some.injEq] at kept
          exact Or.inl (kept ▸ List.mem_cons_self)
        · exact Or.inr kept

/-- Only a candidate is suggested. -/
theorem mem_of_mostRelated {c : Symbol} (found : mostRelated symbol candidates = some c) :
    c ∈ candidates := by
  rw [mostRelated_eq_foldl, Option.map_eq_some_iff] at found
  obtain ⟨compared, found, rfl⟩ := found
  have mem := (Suggestion.mem_of_foldl_least found).resolve_right nofun
  obtain ⟨c, other, rfl⟩ := List.mem_map.mp (List.mem_filter.mp mem).1
  exact (List.mem_filter.mp other).1

/-- What is suggested for a symbol among some candidates. -/
structure SuggestionLaws (symbol : Symbol) (candidates : List Symbol) : Prop where
  /-- The distance is the least number of characters to be inserted, deleted or replaced. -/
  distance : ∀ c ∈ candidates, IsLeast {n | Edits n symbol.text.toList c.text.toList}
    (editDistance symbol.text c.text)
  /-- Nothing, if every other candidate is more than two edits away. -/
  none_iff : mostRelated symbol candidates = none ↔
    ∀ c ∈ candidates, c = symbol ∨ 2 < editDistance symbol.text c.text
  /-- Else the candidate with the least pair of edit distance and text, the symbol apart. -/
  some_iff : ∀ c, mostRelated symbol candidates = some c ↔
    c ∈ candidates ∧ c ≠ symbol ∧ editDistance symbol.text c.text ≤ 2 ∧
      ∀ d ∈ candidates, d ≠ symbol →
        toLex (editDistance symbol.text c.text, c.text) ≤
          toLex (editDistance symbol.text d.text, d.text)
  /-- Listing the candidates in another order, or some of them more than once, changes nothing. -/
  congr : ∀ others : List Symbol, (∀ c, c ∈ others ↔ c ∈ candidates) →
    mostRelated symbol others = mostRelated symbol candidates
  /-- Among the texts of the candidates the text of the same candidate is suggested. -/
  text : (mostRelated symbol candidates).map Symbol.text =
    SelfTyped.mostRelated symbol.text (candidates.map Symbol.text)

theorem mostRelated_eq_some (known : ∀ s ∈ symbol :: candidates, table.lookup? s.text = some s)
    (c : Symbol) :
    mostRelated symbol candidates = some c ↔
      c ∈ candidates ∧ c ≠ symbol ∧ editDistance symbol.text c.text ≤ Relation.reach ∧
        ∀ d ∈ candidates, d ≠ symbol →
          closeness symbol.text c.text ≤ closeness symbol.text d.text := by
  have own := known symbol List.mem_cons_self
  have texts : ∀ d ∈ candidates, (d ≠ symbol ↔ d.text ≠ symbol.text) := by
    intro d mem
    refine not_congr ⟨fun same => same ▸ rfl, eq_of_text_eq own ?_⟩
    exact known d (List.mem_cons_of_mem symbol mem)
  have among : ∀ mem : c ∈ candidates, mostRelated symbol candidates = some c ↔
      SelfTyped.mostRelated symbol.text (candidates.map Symbol.text) = some c.text := by
    intro mem
    rw [← text_mostRelated known, Option.map_eq_some_iff]
    refine ⟨fun found => ⟨c, found, rfl⟩, ?_⟩
    rintro ⟨c', found, same⟩
    have mem' := known c' (List.mem_cons_of_mem symbol (mem_of_mostRelated found))
    rw [found, eq_of_text_eq (known c (List.mem_cons_of_mem symbol mem)) mem' same]
  by_cases mem : c ∈ candidates
  · rw [among mem, SelfTyped.mostRelated_eq_some, List.forall_mem_map, texts c mem]
    refine and_congr (iff_of_true (List.mem_map_of_mem mem) mem)
      (and_congr_right fun _ => and_congr_right fun _ => forall₂_congr fun d hd => ?_)
    rw [texts d hd]
  · exact iff_of_false (fun found => mem (mem_of_mostRelated found)) fun held => mem held.1

theorem suggestionLaws (known : ∀ s ∈ symbol :: candidates, table.lookup? s.text = some s) :
    SuggestionLaws symbol candidates where
  distance c _ := isLeast_editDistance symbol.text c.text
  none_iff := by
    have own := known symbol List.mem_cons_self
    rw [← Option.map_eq_none_iff (f := Symbol.text), text_mostRelated known,
      SelfTyped.mostRelated_eq_none, List.forall_mem_map]
    refine forall₂_congr fun c mem => or_congr ⟨?_, fun same => same ▸ rfl⟩ Iff.rfl
    exact eq_of_text_eq own (known c (List.mem_cons_of_mem symbol mem))
  some_iff := mostRelated_eq_some known
  congr := by
    intro others same
    have known' : ∀ s ∈ symbol :: others, table.lookup? s.text = some s := by
      intro s mem
      refine known s ?_
      rwa [List.mem_cons, ← same, ← List.mem_cons]
    ext c
    rw [mostRelated_eq_some known, mostRelated_eq_some known']
    simp only [same]
  text := text_mostRelated known

end Interned

end SelfTyped
