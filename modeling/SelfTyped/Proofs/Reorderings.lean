/-
SelfTyped.Proofs.Reorderings — what the order of entries cannot change.

Most properties of a draft look at the keys of an object in no order and at the
parts of a draft one by one.  Such a property is `Orderless`, and passes from a
draft to its reorderings (`Orderless.transfer`).  Being well-formed, having a
value and having distinct keys are of this sort.  The depth is not, as it is a
number; nor is the naming of kinds, which depends on the place: both have
inductions of their own.
-/
import Mathlib.Data.List.Perm.Basic
import SelfTyped.Proofs.ReadLevels
import SelfTyped.Source.Place

namespace SelfTyped

namespace Json.Draft

variable {α β : Type} {x y : Draft}

theorem ofJson_injective {j j' : Json} (same : ofJson j = ofJson j') : j = j' := by
  rw [← Option.some.injEq, ← toJson?_ofJson, same, toJson?_ofJson]

/-! ## Symmetry -/

/-- A list that is mapped to one order can be put in the other order before. -/
theorem exists_perm_map {f : α → β} {as : List α} {bs : List β} (order : (as.map f).Perm bs) :
    ∃ as' : List α, as'.Perm as ∧ as'.map f = bs := by
  have each : List.Forall₂ (fun b a => b = f a) (as.map f) as :=
    List.forall₂_map_left_iff.mpr (List.forall₂_same.mpr fun _ _ => rfl)
  obtain ⟨as', each', order'⟩ := List.perm_comp_forall₂ order.symm each
  refine ⟨as', order', ?_⟩
  rw [← List.forall₂_eq_eq_eq, List.forall₂_map_left_iff]
  exact each'.flip.imp fun _ _ => Eq.symm

/-- Neither of two reordered drafts is the original. -/
theorem Reordered.symm (reordered : Reordered x y) : Reordered y x := by
  induction reordered with
  | same draft => exact .same draft
  | @array pairs closed each ih =>
    have swapped : Reordered (.array ((pairs.map Prod.swap).map Prod.fst) closed)
        (.array ((pairs.map Prod.swap).map Prod.snd) closed) :=
      .array (List.forall_mem_map.mpr ih)
    rwa [List.map_map, List.map_map] at swapped
  | @object cells entries closed each order ih =>
    obtain ⟨cells', order', rfl⟩ := exists_perm_map order
    have swapped : Reordered
        (.object ((cells'.map fun cell => (cell.1, cell.2.swap)).map
          fun cell => (cell.1, cell.2.1)) closed)
        (.object (cells.map fun cell => (cell.1, cell.2.1)) closed) := by
      refine .object (List.forall_mem_map.mpr fun cell mem => ih cell (order'.mem_iff.mp mem)) ?_
      rw [List.map_map]
      exact order'.map fun cell => (cell.1, cell.2.1)
    rwa [List.map_map] at swapped

/-! ## Parts -/

theorem Reordered.eq_of_flat (reordered : Reordered x y)
    (array : ∀ items closed, x ≠ .array items closed)
    (object : ∀ entries closed, x ≠ .object entries closed) : y = x := by
  cases reordered with
  | same => rfl
  | array => exact absurd rfl (array _ _)
  | object => exact absurd rfl (object _ _)

theorem Reordered.of_array {items : List Draft} {closed : Bool}
    (reordered : Reordered (.array items closed) y) :
    ∃ items', y = .array items' closed ∧ items.length = items'.length ∧
      ∀ (i : Nat) (a b : Draft), items[i]? = some a → items'[i]? = some b → Reordered a b := by
  cases reordered with
  | same =>
    refine ⟨items, rfl, rfl, fun i a b first second => ?_⟩
    rw [first, Option.some.injEq] at second
    exact second ▸ .same a
  | @array pairs _ each =>
    refine ⟨_, rfl, by rw [List.length_map, List.length_map], fun i a b first second => ?_⟩
    rw [List.getElem?_map, Option.map_eq_some_iff] at first second
    obtain ⟨pair, hpair, rfl⟩ := first
    obtain ⟨pair', hpair', rfl⟩ := second
    rw [hpair, Option.some.injEq] at hpair'
    exact hpair' ▸ each pair (List.mem_of_getElem? hpair)

theorem Reordered.of_object {entries : List (Option String × Draft)} {closed : Bool}
    (reordered : Reordered (.object entries closed) y) :
    ∃ entries', y = .object entries' closed ∧
      (∀ key a, (key, a) ∈ entries → ∃ b, (key, b) ∈ entries' ∧ Reordered a b) ∧
      ∀ key b, (key, b) ∈ entries' → ∃ a, (key, a) ∈ entries ∧ Reordered a b := by
  cases reordered with
  | same =>
    exact ⟨entries, rfl, fun _ a mem => ⟨a, mem, .same a⟩, fun _ a mem => ⟨a, mem, .same a⟩⟩
  | @object cells entries' _ each order =>
    refine ⟨entries', rfl, fun key a mem => ?_, fun key b mem => ?_⟩
    · obtain ⟨cell, hcell, is⟩ := List.mem_map.mp mem
      cases is
      exact ⟨_, order.mem_iff.mp (List.mem_map.mpr ⟨cell, hcell, rfl⟩), each cell hcell⟩
    · obtain ⟨cell, hcell, is⟩ := List.mem_map.mp (order.mem_iff.mpr mem)
      cases is
      exact ⟨_, List.mem_map.mpr ⟨cell, hcell, rfl⟩, each cell hcell⟩

/-! ## Properties without order -/

/-- A property that looks at the keys of an object in no order, and at the parts one by one. -/
structure Orderless (P : Draft → Prop) (ofArray : Bool → Prop)
    (ofObject : Bool → List (Option String) → Prop) : Prop where
  array {items : List Draft} {closed : Bool} :
    P (.array items closed) ↔ ofArray closed ∧ ∀ item ∈ items, P item
  object {entries : List (Option String × Draft)} {closed : Bool} :
    P (.object entries closed) ↔
      ofObject closed (entries.map Prod.fst) ∧ ∀ entry ∈ entries, P entry.2
  perm {closed : Bool} {keys keys' : List (Option String)} :
    keys.Perm keys' → ofObject closed keys → ofObject closed keys'

/-- What looks at no order is kept by reordering. -/
theorem Orderless.transfer {P : Draft → Prop} {ofArray : Bool → Prop}
    {ofObject : Bool → List (Option String) → Prop} (orderless : Orderless P ofArray ofObject)
    (reordered : Reordered x y) (holds : P x) : P y := by
  induction reordered with
  | same => exact holds
  | array each ih =>
    obtain ⟨here, inside⟩ := orderless.array.mp holds
    rw [List.forall_mem_map] at inside
    exact orderless.array.mpr
      ⟨here, List.forall_mem_map.mpr fun pair mem => ih pair mem (inside pair mem)⟩
  | @object cells entries closed each order ih =>
    obtain ⟨here, inside⟩ := orderless.object.mp holds
    rw [List.forall_mem_map] at inside
    refine orderless.object.mpr ⟨orderless.perm ?_ here, fun entry mem => ?_⟩
    · have keys := order.map Prod.fst
      rw [List.map_map] at keys ⊢
      exact keys
    · obtain ⟨cell, hcell, rfl⟩ := List.mem_map.mp (order.mem_iff.mpr mem)
      exact ih cell hcell (inside cell hcell)

theorem allComplete_iff {items : List Draft} :
    allComplete items = true ↔ ∀ item ∈ items, item.isComplete = true := by
  induction items with
  | nil => exact iff_of_true rfl nofun
  | cons item items ih => rw [allComplete, Bool.and_eq_true, ih, List.forall_mem_cons]

theorem entriesComplete_iff {entries : List (Option String × Draft)} :
    entriesComplete entries = true ↔ ∀ entry ∈ entries, entry.2.isComplete = true := by
  induction entries with
  | nil => exact iff_of_true rfl nofun
  | cons entry entries ih => rw [entriesComplete, Bool.and_eq_true, ih, List.forall_mem_cons]

theorem orderless_isComplete :
    Orderless (·.isComplete = true) (· = true) (fun closed _ => closed = true) where
  array := by
    intro items closed
    rw [isComplete, Bool.and_eq_true, allComplete_iff, and_comm]
  object := by
    intro entries closed
    rw [isComplete, Bool.and_eq_true, entriesComplete_iff, and_comm]
  perm _ here := here

theorem itemsToJson?_isSome {items : List Draft} :
    (itemsToJson? items).isSome = true ↔ ∀ item ∈ items, item.toJson?.isSome = true := by
  induction items with
  | nil => exact iff_of_true rfl nofun
  | cons item items ih =>
    rw [List.forall_mem_cons, ← ih, itemsToJson?]
    cases item.toJson? <;> cases itemsToJson? items <;> simp

theorem entriesToJson?_isSome {entries : List (Option String × Draft)} :
    (entriesToJson? entries).isSome = true ↔
      (∀ key ∈ entries.map Prod.fst, key.isSome = true) ∧
        ∀ entry ∈ entries, entry.2.toJson?.isSome = true := by
  induction entries with
  | nil => exact iff_of_true rfl ⟨nofun, nofun⟩
  | cons entry entries ih =>
    obtain ⟨- | key, value⟩ := entry
    · rw [entriesToJson?]
      simp
    · have head : (entriesToJson? ((some key, value) :: entries)).isSome = true ↔
          value.toJson?.isSome = true ∧ (entriesToJson? entries).isSome = true := by
        rw [entriesToJson?]
        cases value.toJson? <;> cases entriesToJson? entries <;> simp
      rw [head, ih, List.map_cons, List.forall_mem_cons, List.forall_mem_cons, and_left_comm]
      exact and_congr_left' (and_iff_right rfl).symm

theorem orderless_hasValue :
    Orderless (·.toJson?.isSome = true) (· = true)
      (fun closed keys => closed = true ∧ ∀ key ∈ keys, key.isSome = true) where
  array := by
    intro items closed
    rw [← itemsToJson?_isSome, toJson?]
    cases itemsToJson? items <;> cases closed <;> simp
  object := by
    intro entries closed
    rw [and_assoc, ← entriesToJson?_isSome, toJson?]
    cases entriesToJson? entries <;> cases closed <;> simp
  perm order here := ⟨here.1, fun key mem => here.2 key (order.mem_iff.mpr mem)⟩

theorem itemsDistinct_iff {items : List Draft} :
    itemsDistinct items = true ↔ ∀ item ∈ items, item.distinctKeys = true := by
  induction items with
  | nil => exact iff_of_true rfl nofun
  | cons item items ih => rw [itemsDistinct, Bool.and_eq_true, ih, List.forall_mem_cons]

theorem entriesDistinct_iff {entries : List (Option String × Draft)} :
    entriesDistinct entries = true ↔ ∀ entry ∈ entries, entry.2.distinctKeys = true := by
  induction entries with
  | nil => exact iff_of_true rfl nofun
  | cons entry entries ih => rw [entriesDistinct, Bool.and_eq_true, ih, List.forall_mem_cons]

theorem keys_eq (entries : List (Option String × Draft)) :
    keys entries = (entries.map Prod.fst).filterMap id := by
  rw [keys, List.filterMap_map]
  rfl

theorem orderless_distinctKeys :
    Orderless (·.distinctKeys = true) (fun _ => True)
      (fun _ keys => (keys.filterMap id).Nodup) where
  array := by
    intro items closed
    rw [distinctKeys, itemsDistinct_iff, true_and]
  object := by
    intro entries closed
    rw [distinctKeys, Bool.and_eq_true, decide_eq_true_iff, entriesDistinct_iff, keys_eq]
  perm order here := (order.filterMap id).nodup_iff.mp here

theorem Reordered.isComplete (reordered : Reordered x y) (complete : x.isComplete = true) :
    y.isComplete = true :=
  orderless_isComplete.transfer reordered complete

theorem Reordered.toJson?_isSome (reordered : Reordered x y) (value : x.toJson?.isSome = true) :
    y.toJson?.isSome = true :=
  orderless_hasValue.transfer reordered value

theorem Reordered.distinctKeys (reordered : Reordered x y) (distinct : x.distinctKeys = true) :
    y.distinctKeys = true :=
  orderless_distinctKeys.transfer reordered distinct

/-! ## Depth -/

theorem Reordered.depth_le (reordered : Reordered x y) : y.depth ≤ x.depth := by
  induction reordered with
  | same => exact Nat.le_refl _
  | @array pairs closed each ih =>
    refine Nat.succ_le_succ (depthItems_le_iff.mpr (List.forall_mem_map.mpr fun pair mem => ?_))
    exact Nat.le_trans (ih pair mem)
      (depthItems_le_iff.mp (Nat.le_refl _) _ (List.mem_map_of_mem mem))
  | @object cells entries closed each order ih =>
    refine Nat.succ_le_succ (depthEntries_le_iff.mpr fun entry mem => ?_)
    obtain ⟨cell, hcell, rfl⟩ := List.mem_map.mp (order.mem_iff.mpr mem)
    refine Nat.le_trans (ih cell hcell) ?_
    exact depthEntries_le_iff.mp (Nat.le_refl _) (cell.1, cell.2.1) (List.mem_map_of_mem hcell)

theorem Reordered.depth_eq (reordered : Reordered x y) : x.depth = y.depth :=
  Nat.le_antisymm reordered.symm.depth_le reordered.depth_le

end Json.Draft

namespace Source

open Json (Draft)

/-! ## Kinds -/

variable {place : Place} {x y : Draft}

theorem itemsUnambiguous_iff {index : Nat} {items : List Draft} :
    itemsUnambiguous place index items = true ↔
      ∀ i item, items[i]? = some item → unambiguous (place.item (index + i)) item = true := by
  induction items generalizing index with
  | nil => exact iff_of_true rfl nofun
  | cons first items ih =>
    rw [itemsUnambiguous, Bool.and_eq_true, ih]
    constructor
    · rintro ⟨here, others⟩ (_ | i) item is
      · cases is
        exact here
      · rw [Nat.add_comm i 1, ← Nat.add_assoc]
        exact others i item is
    · intro each
      refine ⟨each 0 first rfl, fun i item is => ?_⟩
      rw [Nat.add_assoc, Nat.add_comm 1 i]
      exact each (i + 1) item is

theorem entriesUnambiguous_iff {entries : List (Option String × Draft)} :
    entriesUnambiguous place entries = true ↔
      ∀ key value, (some key, value) ∈ entries → unambiguous (place.entry key) value = true := by
  induction entries with
  | nil => exact iff_of_true rfl nofun
  | cons entry entries ih =>
    obtain ⟨- | name, first⟩ := entry
    · rw [entriesUnambiguous, ih]
      simp
    · rw [entriesUnambiguous, Bool.and_eq_true, ih]
      constructor
      · rintro ⟨here, others⟩ key value mem
        rcases List.mem_cons.mp mem with same | mem
        · cases same
          exact here
        · exact others key value mem
      · intro each
        exact ⟨each name first List.mem_cons_self,
          fun key value mem => each key value (List.mem_cons_of_mem _ mem)⟩

theorem unambiguous_array {items : List Draft} {closed : Bool} :
    unambiguous place (.array items closed) = true ↔
      ∀ i item, items[i]? = some item → unambiguous (place.item i) item = true := by
  rw [unambiguous, itemsUnambiguous_iff]
  simp only [Nat.zero_add]

theorem unambiguous_object {entries : List (Option String × Draft)} {closed : Bool} :
    unambiguous place (.object entries closed) = true ↔
      (place = .expr → (kindsNamed entries).length ≤ 1) ∧
        ∀ key value, (some key, value) ∈ entries →
          unambiguous (place.entry key) value = true := by
  rw [unambiguous, Bool.and_eq_true, entriesUnambiguous_iff, Bool.or_eq_true, bne_iff_ne,
    decide_eq_true_iff, ← imp_iff_not_or]

theorem kindsNamed_perm {entries entries' : List (Option String × Draft)}
    (order : (entries.map Prod.fst).Perm (entries'.map Prod.fst)) :
    (kindsNamed entries).Perm (kindsNamed entries') := by
  rw [kindsNamed, kindsNamed, Draft.keys_eq, Draft.keys_eq]
  exact (order.filterMap id).filterMap Kind.ofKey?

/-- Whether kinds are named once is not a matter of order. -/
theorem unambiguous_of_reordered (reordered : Draft.Reordered x y)
    (clear : unambiguous place x = true) : unambiguous place y = true := by
  induction reordered generalizing place with
  | same => exact clear
  | @array pairs closed each ih =>
    rw [unambiguous_array] at clear ⊢
    intro i item is
    rw [List.getElem?_map, Option.map_eq_some_iff] at is
    obtain ⟨pair, hpair, rfl⟩ := is
    refine ih pair (List.mem_of_getElem? hpair) (clear i pair.1 ?_)
    rw [List.getElem?_map, hpair]
    rfl
  | @object cells entries closed each order ih =>
    obtain ⟨kinds, inside⟩ := unambiguous_object.mp clear
    have keys : ((cells.map fun cell => (cell.1, cell.2.1)).map Prod.fst).Perm
        (entries.map Prod.fst) := by
      have names := order.map Prod.fst
      rw [List.map_map] at names ⊢
      exact names
    refine unambiguous_object.mpr ⟨fun isExpr => ?_, fun key value mem => ?_⟩
    · rw [← (kindsNamed_perm keys).length_eq]
      exact kinds isExpr
    · obtain ⟨⟨key', value', value''⟩, hcell, is⟩ := List.mem_map.mp (order.mem_iff.mpr mem)
      cases is
      exact ih _ hcell (inside key value' (List.mem_map.mpr ⟨_, hcell, rfl⟩))

end Source

end SelfTyped
