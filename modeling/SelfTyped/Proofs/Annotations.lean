/-
SelfTyped.Proofs.Annotations — no node is annotated twice.

The annotations of a run have pairwise distinct addresses
(`annotations_distinct`), because every level of the program numbers what
is on it.  So making them one after the other never meets a node that has
a type already, and the table that results holds what the run records:
`table_exact`.

The annotations are listed from the results of a run.  That they are listed
in the order in which the checker makes them is `Setting.record?_eq`: a
checker that has the table in hand, and annotates an expression when it comes
back from the parts, fills in the same table.
-/
import SelfTyped.Proofs.Runs
import SelfTyped.Typing.Annotations

namespace SelfTyped

/-! ## Numbered items -/

namespace Annotations

variable {α : Type} {ofItem : α → Annotations} {items : List α} {first number : Nat}
  {address : Address} {a : Annotation} {annotations : Annotations}

theorem mem_under :
    (address, a) ∈ under number annotations ↔
      ∃ rest, address = number :: rest ∧ (rest, a) ∈ annotations := by
  simp only [under, List.mem_map, Prod.exists, Prod.mk.injEq]
  constructor
  · rintro ⟨rest, a', mem, rfl, rfl⟩
    exact ⟨rest, rfl, mem⟩
  · rintro ⟨rest, rfl, mem⟩
    exact ⟨rest, a, mem, rfl, rfl⟩

/-- The first number of an address is that of an item. -/
theorem mem_ofItems :
    (address, a) ∈ ofItems ofItem first items ↔
      ∃ number rest item, address = (first + number) :: rest ∧ items[number]? = some item ∧
        (rest, a) ∈ ofItem item := by
  induction items generalizing first with
  | nil => simp [ofItems]
  | cons item others ih =>
    rw [ofItems, List.mem_append, mem_under, ih]
    constructor
    · rintro (⟨rest, rfl, mem⟩ | ⟨number, rest, other, rfl, found, mem⟩)
      · exact ⟨0, rest, item, rfl, rfl, mem⟩
      · exact ⟨number + 1, rest, other, by rw [Nat.add_right_comm, Nat.add_assoc], found, mem⟩
    · rintro ⟨number, rest, other, rfl, found, mem⟩
      cases number with
      | zero =>
        rw [List.getElem?_cons_zero, Option.some.injEq] at found
        exact Or.inl ⟨rest, rfl, found ▸ mem⟩
      | succ number =>
        refine Or.inr ⟨number, rest, other, ?_, found, mem⟩
        rw [Nat.add_right_comm, Nat.add_assoc]

theorem ofItems_distinct (distinct : ∀ item ∈ items, ((ofItem item).map Prod.fst).Nodup)
    (first : Nat) : ((ofItems ofItem first items).map Prod.fst).Nodup := by
  induction items generalizing first with
  | nil => exact List.nodup_nil
  | cons item others ih =>
    have here : ((under first (ofItem item)).map Prod.fst).Nodup := by
      have renumbered : (under first (ofItem item)).map Prod.fst =
          ((ofItem item).map Prod.fst).map (first :: ·) := by
        simp [under]
      rw [renumbered]
      exact (distinct item List.mem_cons_self).map List.cons_injective
    have below := ih (fun other mem => distinct other (List.mem_cons_of_mem item mem)) (first + 1)
    rw [ofItems, List.map_append, List.nodup_append]
    refine ⟨here, below, ?_⟩
    -- what comes later has greater numbers
    intro address mem address' mem' same
    obtain ⟨⟨_, a⟩, early, rfl⟩ := List.mem_map.mp mem
    obtain ⟨⟨_, a'⟩, late, rfl⟩ := List.mem_map.mp mem'
    obtain ⟨rest, rfl, -⟩ := mem_under.mp early
    obtain ⟨number, rest', _, rfl, -⟩ := mem_ofItems.mp late
    have := (List.cons.inj same).1
    omega

theorem ofItems_map {β : Type} (f : β → α) (others : List β) (first : Nat) :
    ofItems ofItem first (others.map f) = ofItems (fun other => ofItem (f other)) first others := by
  induction others generalizing first with
  | nil => rfl
  | cons other rest ih => rw [List.map_cons, ofItems, ofItems, ih]

theorem length_ofItems {β : Type} {other : α → List β}
    (same : ∀ item ∈ items, (ofItem item).length = (other item).length) (first : Nat) :
    (ofItems ofItem first items).length = (items.flatMap other).length := by
  induction items generalizing first with
  | nil => rfl
  | cons item others ih =>
    have here := same item List.mem_cons_self
    have below := ih (fun other mem => same other (List.mem_cons_of_mem item mem)) (first + 1)
    simp [ofItems, under, here, below]

end Annotations

/-! ## Annotations of an expression -/

namespace Typed

/-- The expression that a type was found for. -/
def source : Typed → Expr
  | .reached source _ _ => source
  | .cut source _ => source

/-- The annotation of a node itself. -/
def annotation (node : Typed) : Annotation :=
  ⟨node.source, node.type⟩

/-- Induction over results: a statement that passes from the results for the parts to the result
for the expression holds of every result. -/
theorem parts_induction {P : Typed → Prop} (cut : ∀ source type, P (.cut source type))
    (reached : ∀ source type below, (∀ node ∈ below, P node) → P (.reached source type below)) :
    ∀ node, P node
  | .cut source type => cut source type
  | .reached source type below =>
    reached source type below fun node _ => parts_induction cut reached node
termination_by node => node
decreasing_by
  next mem =>
    have hlt := List.sizeOf_lt_of_mem mem
    rw [Typed.reached.sizeOf_spec]
    omega

theorem annotationsBelow_eq (first : Nat) (below : List Typed) :
    annotationsBelow first below = Annotations.ofItems annotations first below := by
  induction below generalizing first with
  | nil => rfl
  | cons node rest ih => rw [annotationsBelow, ih, Annotations.ofItems]

/-- The nodes below an expression are annotated before it. -/
theorem annotations_eq (node : Typed) :
    node.annotations =
      Annotations.ofItems annotations 0 node.parts ++ [([], node.annotation)] := by
  cases node with
  | reached source type below => rw [annotations, annotationsBelow_eq]; rfl
  | cut source type => rfl

theorem annotations_distinct (node : Typed) : (node.annotations.map Prod.fst).Nodup := by
  have step : ∀ node : Typed, (∀ part ∈ node.parts, (part.annotations.map Prod.fst).Nodup) →
      (node.annotations.map Prod.fst).Nodup := by
    intro node distinct
    rw [annotations_eq, List.map_append, List.nodup_append]
    refine ⟨Annotations.ofItems_distinct distinct 0, List.nodup_singleton _, ?_⟩
    intro address mem address' last same
    obtain ⟨⟨_, a⟩, below, rfl⟩ := List.mem_map.mp mem
    obtain ⟨number, rest, _, rfl, -⟩ := Annotations.mem_ofItems.mp below
    simp [← same] at last
  induction node using parts_induction with
  | cut source type => exact step _ (by simp [parts])
  | reached source type below ih => exact step _ ih

/-- A node is annotated where a path leads to it. -/
theorem mem_annotations {node : Typed} {path : List Nat} {a : Annotation} :
    (path, a) ∈ node.annotations ↔ (node.sub? path).map annotation = some a := by
  induction path generalizing node with
  | nil =>
    rw [annotations_eq, List.mem_append, List.mem_singleton, Annotations.mem_ofItems, sub?]
    simp [eq_comm]
  | cons i path ih =>
    rw [annotations_eq, List.mem_append, List.mem_singleton, Annotations.mem_ofItems, sub?]
    cases found : node.parts[i]? with
    | none => simp_all
    | some part => simp_all

theorem flattenAll_eq (below : List Typed) : flattenAll below = below.flatMap flatten := by
  induction below with
  | nil => rfl
  | cons node rest ih => rw [flattenAll, ih, List.flatMap_cons]

/-- As many annotations are made as there are nodes with a type. -/
theorem length_annotations (node : Typed) :
    node.annotations.length = (node.flatten.filter fun (_, type) => type.isSome).length := by
  induction node using parts_induction with
  | cut source type => simp [annotations, flatten, List.filter_map, Function.comp_def]
  | reached source type below ih =>
    rw [annotations, annotationsBelow_eq, flatten, flattenAll_eq, List.length_append,
      List.filter_cons_of_pos rfl, List.filter_flatMap, Annotations.length_ofItems ih]
    rfl

end Typed

/-! ## The table -/

namespace TypeTable

variable {table : TypeTable} {address : Address} {t : Name} {annotations : Annotations}

theorem type?_eq_some_iff (distinct : (table.entries.map Prod.fst).Nodup) :
    table.type? address = some t ↔ (address, t) ∈ table.entries := by
  unfold type?
  rw [Option.map_eq_some_iff]
  constructor
  · rintro ⟨⟨key, _⟩, found, rfl⟩
    have key_eq : key = address := by simpa using List.find?_some found
    exact key_eq ▸ List.mem_of_find?_eq_some found
  · intro mem
    have known : (table.entries.find? fun entry => entry.1 == address).isSome = true :=
      List.find?_isSome.mpr ⟨_, mem, beq_self_eq_true address⟩
    obtain ⟨entry, found⟩ := Option.isSome_iff_exists.mp known
    have key_eq : entry.1 = address := by simpa using List.find?_some found
    have same := List.inj_on_of_nodup_map distinct (List.mem_of_find?_eq_some found) mem key_eq
    exact ⟨entry, found, by rw [same]⟩

/-- Annotations of distinct nodes that have no type yet are all made. -/
theorem annotateAll?_eq (distinct : (annotations.map Prod.fst).Nodup)
    (fresh : ∀ entry ∈ table.entries, entry.1 ∉ annotations.map Prod.fst) :
    table.annotateAll? annotations =
      some ⟨table.entries ++ annotations.map fun (address, a) => (address, a.type)⟩ := by
  induction annotations generalizing table with
  | nil => simp [annotateAll?]
  | cons first rest ih =>
    obtain ⟨address, a⟩ := first
    rw [List.map_cons, List.nodup_cons] at distinct
    obtain ⟨unique, distinct⟩ := distinct
    have free : table.type? address = none := by
      unfold type?
      rw [Option.map_eq_none_iff, List.find?_eq_none]
      intro entry mem same
      exact fresh entry mem (by simp [beq_iff_eq.mp same])
    have step : table.annotate? address a.type =
        some ⟨table.entries ++ [(address, a.type)]⟩ := by
      simp [annotate?, free]
    rw [annotateAll?, step, Option.bind_eq_bind, Option.bind_some, ih distinct]
    · simp
    · intro entry mem later
      rcases List.mem_append.mp mem with early | here
      · exact fresh entry early (List.mem_cons_of_mem _ later)
      · rw [List.mem_singleton.mp here] at later
        exact unique later

end TypeTable

/-! ## Annotating along the way -/

namespace Annotations

variable {α : Type} {first second : Annotations} {address : Address}

/-- Annotations seen from a root from which an address leads to theirs. -/
def below (address : Address) (annotations : Annotations) : Annotations :=
  annotations.map fun (rest, a) => (address ++ rest, a)

@[simp] theorem below_append :
    below address (first ++ second) = below address first ++ below address second :=
  List.map_append

@[simp] theorem below_under (number : Nat) :
    below address (under number first) = below (address ++ [number]) first := by
  simp [below, under]

theorem below_nil : below [] first = first :=
  List.map_id first

end Annotations

namespace TypeTable

variable {α : Type} {visit : TypeTable → Nat → α → Option TypeTable} {ofItem : α → Annotations}
  {items : List α} {address : Address}

theorem annotateAll?_append (table : TypeTable) (first second : Annotations) :
    table.annotateAll? (first ++ second) =
      (table.annotateAll? first).bind fun table => table.annotateAll? second := by
  induction first generalizing table with
  | nil => rfl
  | cons a rest ih =>
    rw [List.cons_append, annotateAll?, annotateAll?, Option.bind_eq_bind, Option.bind_assoc]
    simp only [ih]

/-- Visits items, numbered from `first` on, one after the other with the table in hand. -/
def through? (visit : TypeTable → Nat → α → Option TypeTable) (table : TypeTable) (first : Nat) :
    List α → Option TypeTable
  | [] => some table
  | item :: rest => (visit table first item).bind fun table => through? visit table (first + 1) rest

/-- If every visit makes the annotations for its item, all of them are made, in order. -/
theorem through?_eq
    (visits : ∀ item ∈ items, ∀ table number,
      visit table number item = table.annotateAll? ((ofItem item).below (address ++ [number])))
    (table : TypeTable) (first : Nat) :
    table.through? visit first items =
      table.annotateAll? ((Annotations.ofItems ofItem first items).below address) := by
  induction items generalizing table first with
  | nil => rfl
  | cons item rest ih =>
    have later := ih fun other mem => visits other (List.mem_cons_of_mem item mem)
    rw [through?, visits item List.mem_cons_self, Annotations.ofItems, Annotations.below_append,
      Annotations.below_under, annotateAll?_append]
    simp only [later]

end TypeTable

namespace Setting

variable {g : Setting} {s : CheckState}

/-- Annotates an expression and what is in it, as the checker goes along: the parts one after the
other, and the expression when it comes back from them. -/
def record? (g : Setting) (s : CheckState) (address : Address) (table : TypeTable) (e : Expr) :
    Option TypeTable :=
  if g.maxDepth ≤ s.depth then table.annotate? address Known.object
  else
    (table.through? (fun table number part =>
      g.record? (s.deeper.under part.binder) (address ++ [number]) table part.expr) 0
        e.form.parts).bind fun table => table.annotate? address (g.typeExpr s e).type
termination_by g.maxDepth - s.depth
decreasing_by
  rw [CheckState.under_depth, CheckState.deeper_depth]
  omega

/-- **A node is annotated when the checker comes back from it.** -/
theorem record?_eq (consistent : s.vars.Consistent) (address : Address) (table : TypeTable)
    (e : Expr) :
    g.record? s address table e =
      table.annotateAll? ((g.typeExpr s e).node.annotations.below address) := by
  induction e using Expr.parts_induction generalizing s address table with
  | step line form ih =>
    rw [record?, typeExpr]
    by_cases limit : g.maxDepth ≤ s.depth
    · rw [if_pos limit, if_pos limit]
      simp [cutOff, Typed.annotations, Annotations.below, TypeTable.annotateAll?]
    · have inside : s.deeper.vars.Consistent := consistent
      have parts : ∀ part ∈ form.parts, ∀ table number,
          g.record? (s.deeper.under part.binder) (address ++ [number]) table part.expr =
            table.annotateAll? ((g.partOutcome s.deeper part).node.annotations.below
              (address ++ [number])) :=
        fun part mem table number =>
          ih part mem (CheckState.consistent_under inside part.binder) _ table
      rw [if_neg limit, if_neg limit, TypeTable.through?_eq parts, Inference.finish,
        Typed.annotations, Typed.annotationsBelow_eq, infer_below inside, Annotations.ofItems_map,
        Annotations.below_append, TypeTable.annotateAll?_append]
      simp [Annotations.below, TypeTable.annotateAll?]

end Setting

/-! ## Annotations of a run -/

namespace Analysis

variable {a : Analysis} {i j : Nat} {path : List Nat} {address : Address} {x : Annotation}

theorem annotations_distinct (a : Analysis) : (a.annotations.map Prod.fst).Nodup := by
  refine Annotations.ofItems_distinct (fun c _ => ?_) 0
  exact Annotations.ofItems_distinct (fun f _ => f.node.annotations_distinct) 0

/-- A node of a feature is annotated if the run records a result for it. -/
theorem mem_annotations :
    (address, x) ∈ a.annotations ↔
      ∃ i j path, address = i :: j :: path ∧
        (a.node? i j path).map Typed.annotation = some x := by
  simp only [annotations, Annotations.mem_ofItems, Typed.mem_annotations, Nat.zero_add, node?]
  constructor
  · rintro ⟨i, _, c, rfl, hc, j, path, f, rfl, hf, found⟩
    exact ⟨i, j, path, rfl, by simpa [hc, hf] using found⟩
  · rintro ⟨i, j, path, rfl, found⟩
    cases hc : a.classes[i]? with
    | none => simp [hc] at found
    | some c =>
      cases hf : c.features[j]? with
      | none => simp [hc, hf] at found
      | some f =>
        exact ⟨i, _, c, rfl, hc, j, path, f, rfl, hf, by simpa [hc, hf] using found⟩

theorem length_annotations (a : Analysis) : a.annotations.length = a.typeCount := by
  rw [typeCount, features, List.flatMap_assoc, List.filter_flatMap]
  refine Annotations.length_ofItems (fun c _ => ?_) 0
  rw [List.filter_flatMap]
  exact Annotations.length_ofItems (fun f _ => f.node.length_annotations) 0

/-- **No node is annotated twice.**  The table that the run fills in holds the types that are
recorded, and as many as there are. -/
theorem table_exact (a : Analysis) :
    ∃ table, a.table? = some table ∧
      (∀ i j path, table.type? (i :: j :: path) = a.recordedType? i j path) ∧
      table.size = a.typeCount := by
  have distinct := a.annotations_distinct
  refine ⟨_, TypeTable.annotateAll?_eq distinct (by simp [TypeTable.empty]), ?_, ?_⟩
  · intro i j path
    refine Option.ext fun t => ?_
    rw [TypeTable.type?_eq_some_iff (by simpa [TypeTable.empty, Function.comp_def] using distinct)]
    simp only [TypeTable.empty, List.nil_append, List.mem_map, Prod.exists, Prod.mk.injEq,
      mem_annotations, recordedType?]
    constructor
    · rintro ⟨_, x, ⟨i', j', path', rfl, found⟩, same, rfl⟩
      obtain ⟨rfl, rfl, rfl⟩ : i' = i ∧ j' = j ∧ path' = path := by simpa using same
      obtain ⟨n, result, rfl⟩ := Option.map_eq_some_iff.mp found
      rw [result]
      rfl
    · intro found
      obtain ⟨n, result, rfl⟩ := Option.map_eq_some_iff.mp found
      exact ⟨_, n.annotation, ⟨i, j, path, rfl, by rw [result]; rfl⟩, rfl, rfl⟩
  · simpa [TypeTable.size, TypeTable.empty] using a.length_annotations

end Analysis

end SelfTyped
