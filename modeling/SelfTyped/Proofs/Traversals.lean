/-
SelfTyped.Proofs.Traversals — lists that go through what is at addresses.

A traversal has one entry for each thing that there is, and the addresses of
its entries increase (`Traversal`).  In the order of addresses a node comes
before what is inside it, and that before whatever has a greater number; for
the nodes of an expression this is pre-order.  A traversal misses nothing
and repeats nothing, and its addresses do not depend on the entries
(`Traversal.unique`).

Traversals are put together along the data: items are numbered one after the
other (`Traversed.ofItems`), and a node goes in front (`Traversed.cons`).
From this come traversals of expressions (`Expr.traversed`) and of programs
(`Program.traversed`), and that the walk of a program is one
(`Program.nodes_traversed`).
-/
import Mathlib.Data.List.Forall2
import SelfTyped.Proofs.NestingLimit

namespace SelfTyped

variable {α β γ : Type} {there there' : Address → Prop} {entry : Address → β → Prop}
  {entry' : Address → γ → Prop} {addresses addresses' : List Address} {entries : List β}
  {entries' : List γ}

/-- A list has an entry for everything that there is at an address, in the order of the
addresses. -/
structure Traversal (there : Address → Prop) (entry : Address → β → Prop)
    (addresses : List Address) (entries : List β) : Prop where
  increasing : addresses.Pairwise (· < ·)
  complete : ∀ address, address ∈ addresses ↔ there address
  entries : List.Forall₂ entry addresses entries

/-- A list is a traversal of what there is. -/
def Traversed (there : Address → Prop) (entry : Address → β → Prop) (entries : List β) : Prop :=
  ∃ addresses, Traversal there entry addresses entries

/-- What there is determines the addresses. -/
theorem Traversal.unique (first : Traversal there entry addresses entries)
    (second : Traversal there entry' addresses' entries') : addresses = addresses' := by
  have distinct : ∀ {l : List Address}, l.Pairwise (· < ·) → l.Nodup := by
    intro l increasing
    refine increasing.imp ?_
    rintro a _ lt rfl
    exact List.lt_irrefl a lt
  refine List.Perm.eq_of_pairwise ?_ first.increasing second.increasing ?_
  · exact fun a b _ _ lt gt => absurd gt (List.lt_asymm lt)
  · rw [List.perm_ext_iff_of_nodup (distinct first.increasing) (distinct second.increasing)]
    exact fun address => (first.complete address).trans (second.complete address).symm

namespace Traversed

theorem nil (nothing : ∀ address, ¬ there address) : Traversed there entry [] :=
  ⟨[], .nil, fun address => iff_of_false List.not_mem_nil (nothing address), .nil⟩

/-- Entries may be shown in another way. -/
theorem filterMap (traversed : Traversed there entry entries) {shown : β → Option γ}
    (shows : ∀ address x, entry address x → ∃ y, shown x = some y ∧ entry' address y) :
    Traversed there entry' (entries.filterMap shown) := by
  obtain ⟨addresses, increasing, complete, pairs⟩ := traversed
  refine ⟨addresses, increasing, complete, ?_⟩
  clear increasing complete
  induction pairs with
  | nil => exact .nil
  | cons here _ ih =>
    obtain ⟨y, shown_eq, also⟩ := shows _ _ here
    rw [List.filterMap_cons_some shown_eq]
    exact .cons also ih

theorem of_iff (traversed : Traversed there entry entries)
    (same : ∀ address, there' address ↔ there address) : Traversed there' entry entries := by
  obtain ⟨addresses, increasing, complete, pairs⟩ := traversed
  exact ⟨addresses, increasing, fun address => (complete address).trans (same address).symm, pairs⟩

/-- What is at the root comes before what is inside. -/
theorem cons {root : β} (here : there []) (atRoot : entry [] root)
    (below : Traversed (fun address => address ≠ [] ∧ there address) entry entries) :
    Traversed there entry (root :: entries) := by
  obtain ⟨addresses, increasing, complete, pairs⟩ := below
  refine ⟨[] :: addresses, List.pairwise_cons.mpr ⟨?_, increasing⟩, ?_, .cons atRoot pairs⟩
  · intro address mem
    obtain ⟨number, rest, rfl⟩ := List.exists_cons_of_ne_nil ((complete address).mp mem).1
    exact List.nil_lt_cons number rest
  · intro address
    rw [List.mem_cons, complete]
    by_cases isRoot : address = []
    · simp [isRoot, here]
    · simp [isRoot]

/-- Items that are numbered from `first` on are gone through one after the other. -/
theorem ofItemsFrom (there : Address → Prop) (entry : Address → β → Prop) {items : List α}
    {entriesOf : α → List β} (first : Nat)
    (each : ∀ i item, items[i]? = some item →
      Traversed (fun rest => there ((first + i) :: rest)) (fun rest => entry ((first + i) :: rest))
        (entriesOf item))
    (bounded : ∀ number rest, there (number :: rest) → number < first + items.length) :
    Traversed (fun address => ∃ number rest, address = number :: rest ∧ first ≤ number ∧
      there address) entry (items.flatMap entriesOf) := by
  induction items generalizing first with
  | nil =>
    refine .nil ?_
    rintro _ ⟨number, rest, rfl, least, isThere⟩
    exact absurd (bounded number rest isThere) (Nat.not_lt.mpr least)
  | cons item others ih =>
    obtain ⟨here, increasing, complete, pairs⟩ := each 0 item rfl
    obtain ⟨later, increasing', complete', pairs'⟩ := ih (first + 1)
      (fun i other found => by
        rw [Nat.add_assoc, Nat.add_comm 1]
        exact each (i + 1) other found)
      (fun number rest isThere => by
        have := bounded number rest isThere
        rw [List.length_cons] at this
        omega)
    refine ⟨here.map (first :: ·) ++ later, ?_, ?_, ?_⟩
    · rw [List.pairwise_append, List.pairwise_map]
      refine ⟨increasing.imp fun lt => List.cons_lt_cons_self.mpr lt, increasing', ?_⟩
      -- later items have greater numbers
      intro address mem address' mem'
      obtain ⟨rest, -, rfl⟩ := List.mem_map.mp mem
      obtain ⟨number, rest', rfl, greater, -⟩ := (complete' address').mp mem'
      exact List.cons_lt_cons_iff.mpr (Or.inl greater)
    · intro address
      rw [List.mem_append, List.mem_map, complete']
      constructor
      · rintro (⟨rest, mem, rfl⟩ | ⟨number, rest, rfl, greater, isThere⟩)
        · exact ⟨first, rest, rfl, Nat.le_refl first, (complete rest).mp mem⟩
        · exact ⟨number, rest, rfl, by omega, isThere⟩
      · rintro ⟨number, rest, rfl, least, isThere⟩
        rcases Nat.eq_or_lt_of_le least with rfl | greater
        · exact Or.inl ⟨rest, (complete rest).mpr isThere, rfl⟩
        · exact Or.inr ⟨number, rest, rfl, greater, isThere⟩
    · exact List.rel_append (List.forall₂_map_left_iff.mpr pairs) pairs'

/-- **Items are gone through one after the other**, if the first number of every address is that of
an item. -/
theorem ofItems {items : List α} {entriesOf : α → List β}
    (each : ∀ i item, items[i]? = some item →
      Traversed (fun rest => there (i :: rest)) (fun rest => entry (i :: rest)) (entriesOf item))
    (numbered : ∀ address, there address →
      ∃ number rest item, address = number :: rest ∧ items[number]? = some item) :
    Traversed there entry (items.flatMap entriesOf) := by
  refine (ofItemsFrom there entry 0 ?_ ?_).of_iff ?_
  · simpa only [Nat.zero_add] using each
  · intro number rest isThere
    obtain ⟨_, _, item, same, found⟩ := numbered _ isThere
    cases same
    rw [Nat.zero_add]
    exact (List.getElem?_eq_some_iff.mp found).1
  · intro address
    constructor
    · intro isThere
      obtain ⟨number, rest, _, rfl, -⟩ := numbered address isThere
      exact ⟨number, rest, rfl, Nat.zero_le number, isThere⟩
    · rintro ⟨_, _, -, -, isThere⟩
      exact isThere

end Traversed

/-! ## Expressions -/

/-- The node that a path leads to. -/
def Expr.node? (e : Expr) (path : List Nat) : Option Expr :=
  (e.at? path).map Prod.snd

namespace Expr

variable {line : Nat} {form : Form}

theorem node?_cons (line : Nat) (form : Form) (i : Nat) (path : List Nat) :
    node? ⟨line, form⟩ (i :: path) = form.parts[i]?.bind fun part => part.expr.node? path := by
  rw [node?, at?]
  cases form.parts[i]? with
  | none => rfl
  | some part =>
    rw [Option.bind_some, Option.bind_some, Option.map_map, node?]
    rfl

/-- An expression is gone through from traversals of its parts. -/
theorem traversed {entry : Address → β → Prop} {root : β} {entriesOf : Part → List β}
    (atRoot : entry [] root)
    (each : ∀ i part, form.parts[i]? = some part →
      Traversed (fun path => (part.expr.node? path).isSome = true)
        (fun path => entry (i :: path)) (entriesOf part)) :
    Traversed (fun path => (node? ⟨line, form⟩ path).isSome = true) entry
      (root :: form.parts.flatMap entriesOf) := by
  refine .cons rfl atRoot (.ofItems (fun i part hpart => ?_) ?_)
  · refine (each i part hpart).of_iff fun path => ?_
    rw [node?_cons, hpart, Option.bind_some, and_iff_right (List.cons_ne_nil i path)]
  · rintro address ⟨notRoot, isThere⟩
    obtain ⟨i, path, rfl⟩ := List.exists_cons_of_ne_nil notRoot
    rw [node?_cons] at isThere
    cases found : form.parts[i]? with
    | none =>
      rw [found] at isThere
      cases isThere
    | some part => exact ⟨i, path, part, rfl, found⟩

/-- **A walk goes through the nodes of an expression.** -/
theorem walkFrom_traversed (e : Expr) (depth : Nat) :
    Traversed (fun path => (e.node? path).isSome = true)
      (fun path visited => e.node? path = some visited.2) (e.walkFrom depth) := by
  induction e using Expr.parts_induction generalizing depth with
  | step line form ih =>
    rw [walkFrom, Form.walkBelow_eq]
    refine traversed rfl fun i part hpart => ?_
    simp only [node?_cons, hpart, Option.bind_some]
    exact ih part (List.mem_of_getElem? hpart) (depth + 1)

end Expr

/-! ## Programs -/

namespace Program

variable {p : Program}

/-- The node at an address. -/
def node? (p : Program) : Address → Option Expr
  | i :: j :: path =>
    p.classes[i]?.bind fun c => c.features[j]?.bind fun f => f.root.node? path
  | _ => none

/-- There is a node at an address. -/
def HasNode (p : Program) (address : Address) : Prop :=
  (p.node? address).isSome = true

/-- A program is gone through from traversals of its initializers and bodies. -/
theorem traversed {entry : Address → β → Prop} {entriesOf : Class → Feature → List β}
    (each : ∀ i c j f, p.classes[i]? = some c → c.features[j]? = some f →
      Traversed (fun path => (f.root.node? path).isSome = true)
        (fun path => entry (i :: j :: path)) (entriesOf c f)) :
    Traversed p.HasNode entry (p.classes.flatMap fun c => c.features.flatMap (entriesOf c)) := by
  refine .ofItems (fun i c hc => .ofItems (fun j f hf => ?_) ?_) ?_
  · refine (each i c j f hc hf).of_iff fun path => ?_
    rw [HasNode, node?, hc, Option.bind_some, hf, Option.bind_some]
  · intro address isThere
    rw [HasNode] at isThere
    match address with
    | [] => cases isThere
    | j :: path =>
      rw [node?, hc, Option.bind_some] at isThere
      cases hf : c.features[j]? with
      | none =>
        rw [hf] at isThere
        cases isThere
      | some f => exact ⟨j, path, f, rfl, hf⟩
  · intro address isThere
    rw [HasNode] at isThere
    match address with
    | [] | [_] => cases isThere
    | i :: j :: path =>
      rw [node?] at isThere
      cases hc : p.classes[i]? with
      | none =>
        rw [hc] at isThere
        cases isThere
      | some c => exact ⟨i, j :: path, c, rfl, hc⟩

/-- **The walk of a program goes through its nodes**, class by class, feature by feature and in
pre-order. -/
theorem nodes_traversed (p : Program) :
    Traversed p.HasNode (fun address visited => p.node? address = some visited.2) p.nodes := by
  refine traversed fun i c j f hc hf => ?_
  simp only [node?, hc, hf, Option.bind_some]
  exact f.root.walkFrom_traversed 0

end Program

end SelfTyped
