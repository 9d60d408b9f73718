/-
SelfTyped.Proofs.LineInheritance — which line a construct has.

Lines are passed down: a construct that states no line has the line of the
construct around it.  So the line of a construct is the first that is
stated on the way outwards from it, and line 1 if none is.  A receiver or
an initializer that was left out states nothing, and has the line of what
it was left out of.

One step down is `Site.parts_construct`: the constructs directly inside the
construct at a site are those at the sites directly inside the site.  The
rest is an induction on the address (`descend_map`).
-/
import SelfTyped.Program.Construct

namespace SelfTyped

/-! ## Addresses -/

/-- Where a function takes the parts of a node to the parts of its image, it takes what an address
leads to from the node to what the address leads to from the image. -/
theorem descend_map {α β : Type} {parts : α → List α} {parts' : β → List β} {f : α → β}
    {kept : α → Prop} (inside : ∀ a, kept a → ∀ b ∈ parts a, kept b)
    (commutes : ∀ a, kept a → parts' (f a) = (parts a).map f) (address : List Nat) {a : α}
    (keeps : kept a) : descend parts' address (f a) = (descend parts address a).map f := by
  induction address generalizing a with
  | nil => rfl
  | cons number address ih =>
    rw [descend, descend, commutes a keeps, List.getElem?_map]
    cases found : (parts a)[number]? with
    | none => rfl
    | some b => exact ih (inside a keeps b (List.mem_of_getElem? found))

theorem descend_keeps {α : Type} {parts : α → List α} {kept : α → Prop}
    (inside : ∀ a, kept a → ∀ b ∈ parts a, kept b) (address : List Nat) {a b : α} (keeps : kept a)
    (found : descend parts address a = some b) : kept b := by
  induction address generalizing a with
  | nil =>
    obtain rfl := Option.some.inj found
    exact keeps
  | cons number address ih =>
    obtain ⟨part, here, below⟩ := Option.bind_eq_some_iff.mp found
    exact ih (inside a keeps part (List.mem_of_getElem? here)) below

theorem descend_append {α : Type} (parts : α → List α) (address : List Nat) (number : Nat) (a : α) :
    descend parts (address ++ [number]) a =
      (descend parts address a).bind fun b => (parts b)[number]? := by
  induction address generalizing a with
  | nil => simp [descend]
  | cons first address ih =>
    rw [List.cons_append, descend, descend, Option.bind_assoc]
    exact congrArg _ (funext ih)

theorem itemsOfSource_eq_map (line : Nat) (items : List Source.Expr) :
    itemsOfSource line items = items.map (Expr.ofSource line) := by
  induction items with
  | nil => rfl
  | cons item rest ih => rw [itemsOfSource, ih, List.map_cons]

theorem branchesOfSource_eq_map (line : Nat) (branches : List Source.Branch) :
    branchesOfSource line branches = branches.map (Branch.ofSource line) := by
  induction branches with
  | nil => rfl
  | cons branch rest ih =>
    obtain ⟨name, type, body, own⟩ := branch
    rw [branchesOfSource, ih, List.map_cons, Branch.ofSource]

namespace Source

variable {decl : Class}

/-! ## Positions -/

@[simp] theorem Position.receiver_ne_class (receiver : Option Expr) :
    .given (.classDecl decl) ≠ Position.receiver receiver := by
  cases receiver <;> simp [Position.receiver]

@[simp] theorem Position.init_ne_class (init : Option Expr) :
    .given (.classDecl decl) ≠ Position.init init := by
  cases init <;> simp [Position.init]

theorem Form.class_notMem_positions (form : Form) : .given (.classDecl decl) ∉ form.positions := by
  cases form <;> simp [positions, children]

theorem Feature.class_notMem_positions (feature : Feature) :
    .given (.classDecl decl) ∉ feature.positions := by
  cases feature <;> simp [positions]

/-- No class is inside anything. -/
theorem Position.class_notMem_parts (position : Position) :
    .given (.classDecl decl) ∉ position.parts := by
  cases position with
  | given construct =>
    cases construct with
    | feature decl => exact decl.class_notMem_positions
    | expr e => exact e.form.class_notMem_positions
    | classDecl | formal | branch => simp [parts, Construct.positions]
  | omittedReceiver | omittedInit => simp [parts]

theorem Form.mem_positions_of_branch {form : Form} {branch : Branch}
    (mem : branch ∈ form.branches) : .given (.branch branch) ∈ form.positions := by
  cases form with
  | case scrutinee arms =>
    have inside : branch ∈ arms := mem
    simpa [positions] using inside
  | _ => cases mem

/-- An expression directly inside another has a position there, or is the body of a branch. -/
theorem Form.mem_positions_of_child {form : Form} {child : Expr} (mem : child ∈ form.children) :
    .given (.expr child) ∈ form.positions ∨ ∃ branch ∈ form.branches, branch.body = child := by
  cases form with
  | dispatch receiver | staticDispatch receiver =>
    cases receiver <;> simpa [children, positions, branches, Position.receiver] using mem
  | letIn name type init =>
    cases init <;> simpa [children, positions, branches, Position.init] using mem
  | case scrutinee arms => simpa [children, positions, branches] using mem
  | _ => exact .inl (List.mem_map_of_mem mem)

theorem Feature.mem_positions_of_formal {feature : Feature} {formal : Formal}
    (mem : formal ∈ feature.formals) : .given (.formal formal) ∈ feature.positions := by
  cases feature with
  | attr decl => cases mem
  | method decl => exact List.mem_append_left _ (List.mem_map_of_mem mem)

theorem Feature.mem_positions_of_root {feature : Feature} {root : Expr}
    (holds : root ∈ feature.root?) : .given (.expr root) ∈ feature.positions := by
  cases feature with
  | attr decl =>
    have is : decl.init = some root := holds
    simp [positions, is, Position.init]
  | method decl =>
    obtain rfl : decl.body = root := Option.some.inj holds
    simp [positions]

/-! ## Sites -/

theorem inheritedLine_cons (line : Option Nat) (around : List (Option Nat)) :
    inheritedLine (line :: around) = line.getD (inheritedLine around) := by
  cases line <;> rfl

namespace Site

/-- A class is inside nothing. -/
def Proper (site : Site) : Prop :=
  ∀ decl, site.position = .given (.classDecl decl) → site.around = []

theorem proper_ofClass (decl : Class) : (ofClass decl).Proper :=
  fun _ _ => rfl

theorem proper_of_mem_parts {site part : Site} (mem : part ∈ site.parts) : part.Proper := by
  intro decl is
  obtain ⟨position, inside, rfl⟩ := List.mem_map.mp mem
  obtain rfl : position = .given (.classDecl decl) := is
  exact absurd inside site.position.class_notMem_parts

/-- The constructs directly inside an expression at a site are those at the sites inside it. -/
theorem constructs_ofSource (file : String) (lines : List (Option Nat)) (form : Form) :
    (Form.ofSource (inheritedLine lines) form).constructs =
      form.positions.map fun position => construct file ⟨position, lines⟩ := by
  cases form with
  | dispatch receiver | staticDispatch receiver =>
    cases receiver <;>
      simp [Form.ofSource, Form.positions, SelfTyped.Form.constructs, SelfTyped.Form.children,
        Position.receiver, construct, itemsOfSource_eq_map]
  | letIn name type init =>
    cases init <;>
      simp [Form.ofSource, Form.positions, SelfTyped.Form.constructs, SelfTyped.Form.children,
        Position.init, construct]
  | _ =>
    simp [Form.ofSource, Form.positions, Form.children, SelfTyped.Form.constructs,
      SelfTyped.Form.children, construct, itemsOfSource_eq_map, branchesOfSource_eq_map]

/-- The constructs directly inside a feature at a site are those at the sites inside it. -/
theorem constructs_feature (file : String) (around : List (Option Nat)) (feature : Feature) :
    (Feature.ofSource (inheritedLine around) feature).constructs =
      feature.positions.map fun position => construct file ⟨position, feature.line :: around⟩ := by
  cases feature with
  | attr decl =>
    obtain ⟨name, type, init, line⟩ := decl
    cases init <;>
      simp [Feature.ofSource, Attribute.ofSource, Feature.positions, Feature.line,
        SelfTyped.Feature.constructs, Position.init, construct, inheritedLine_cons]
  | method decl =>
    simp [Feature.ofSource, Method.ofSource, Feature.positions, Feature.line,
      SelfTyped.Feature.constructs, construct, inheritedLine_cons]

/-- The constructs directly inside the construct at a site are those at the sites inside it. -/
theorem parts_construct (file : String) {site : Site} (proper : site.Proper) :
    (site.construct file).parts = site.parts.map (construct file) := by
  obtain ⟨position, around⟩ := site
  rw [parts, List.map_map]
  cases position with
  | given inner =>
    cases inner with
    | classDecl decl =>
      obtain rfl : around = [] := proper decl rfl
      simp [construct, SelfTyped.Construct.parts, Class.ofSource, Position.parts,
        Construct.positions, lines, Position.line, Construct.line, inheritedLine_cons,
        inheritedLine]
    | feature decl => exact constructs_feature file around decl
    | formal decl => rfl
    | branch decl =>
      simp [construct, SelfTyped.Construct.parts, Branch.ofSource, Position.parts,
        Construct.positions, lines, Position.line, Construct.line, inheritedLine_cons]
    | expr e =>
      obtain ⟨line, form⟩ := e
      have constructs := constructs_ofSource file (line :: around) form
      rw [inheritedLine_cons] at constructs
      exact constructs
  | omittedReceiver | omittedInit => rfl

/-- The construct at a site has the first line that is stated from there outwards. -/
theorem line_construct (file : String) {site : Site} (proper : site.Proper) :
    (site.construct file).line = site.line := by
  obtain ⟨position, around⟩ := site
  rw [line, lines, inheritedLine_cons]
  cases position with
  | given inner =>
    cases inner with
    | classDecl decl =>
      obtain rfl : around = [] := proper decl rfl
      rfl
    | feature decl => cases decl <;> rfl
    | expr e => cases e; rfl
    | formal | branch => rfl
  | omittedReceiver | omittedInit => rfl

end Site

/-! ## Addresses -/

namespace Program

variable {p : Program} {address : List Nat} {site inner : Site}

theorem site?_proper (found : p.site? address = some site) : site.Proper := by
  cases address with
  | nil => cases found
  | cons number address =>
    obtain ⟨root, here, below⟩ := Option.bind_eq_some_iff.mp found
    obtain ⟨decl, -, rfl⟩ := List.mem_map.mp (List.mem_of_getElem? here)
    exact descend_keeps (fun _ _ _ => Site.proper_of_mem_parts) address (Site.proper_ofClass decl)
      below

/-- An address leads to what stands at the site that it leads to in the source program. -/
theorem construct?_ofSource (file : String) (p : Program) (address : List Nat) :
    (Program.ofSource file p).construct? address = (p.site? address).map (Site.construct file) := by
  cases address with
  | nil => rfl
  | cons number address =>
    have roots : (Program.ofSource file p).classes.map SelfTyped.Construct.classDecl =
        (p.classes.map Site.ofClass).map (Site.construct file) := by
      rw [Program.ofSource, List.map_map, List.map_map]
      rfl
    rw [SelfTyped.Program.construct?, site?, roots, List.getElem?_map]
    cases found : (p.classes.map Site.ofClass)[number]? with
    | none => rfl
    | some root =>
      obtain ⟨decl, -, rfl⟩ := List.mem_map.mp (List.mem_of_getElem? found)
      exact descend_map (fun _ _ _ => Site.proper_of_mem_parts)
        (fun _ => Site.parts_construct file) address (Site.proper_ofClass decl)

theorem site?_append (found : p.site? address = some site) (number : Nat) :
    p.site? (address ++ [number]) = site.parts[number]? := by
  cases address with
  | nil => cases found
  | cons first address =>
    rw [site?] at found
    rw [List.cons_append, site?]
    obtain ⟨root, here, below⟩ := Option.bind_eq_some_iff.mp found
    rw [here, Option.bind_some, descend_append, below, Option.bind_some]

theorem HasSite.part (has : p.HasSite site) (mem : inner ∈ site.parts) : p.HasSite inner := by
  obtain ⟨address, found⟩ := has
  obtain ⟨number, here⟩ := List.mem_iff_getElem?.mp mem
  exact ⟨address ++ [number], (site?_append found number).trans here⟩

theorem Reaches.part {outer inner : Construct} (reaches : p.Reaches outer)
    (mem : .given inner ∈ outer.positions) : p.Reaches inner := by
  obtain ⟨around, has⟩ := reaches
  exact ⟨outer.line :: around, has.part (List.mem_map_of_mem mem)⟩

theorem Reaches.branch {e : Expr} {branch : Branch} (reaches : p.Reaches (.expr e))
    (mem : branch ∈ e.form.branches) : p.Reaches (.branch branch) :=
  reaches.part (Form.mem_positions_of_branch mem)

theorem Reaches.child {e child : Expr} (reaches : p.Reaches (.expr e))
    (mem : child ∈ e.form.children) : p.Reaches (.expr child) := by
  rcases Form.mem_positions_of_child mem with direct | ⟨branch, inside, rfl⟩
  · exact reaches.part direct
  · exact (reaches.branch inside).part (.head _)

theorem reaches_class {decl : Class} (mem : decl ∈ p.classes) : p.Reaches (.classDecl decl) := by
  obtain ⟨number, here⟩ := List.mem_iff_getElem?.mp mem
  refine ⟨[], [number], ?_⟩
  rw [site?, List.getElem?_map, here]
  rfl

theorem reaches_feature {decl : Class} {feature : Feature} (declared : decl ∈ p.classes)
    (mem : feature ∈ decl.features) : p.Reaches (.feature feature) :=
  (reaches_class declared).part (List.mem_map_of_mem mem)

theorem reaches_expr {e : Expr} (contained : p.Contains e) : p.Reaches (.expr e) := by
  obtain ⟨decl, declared, feature, mem, root, holds, inside⟩ := contained
  induction inside with
  | self => exact (reaches_feature declared mem).part (Feature.mem_positions_of_root holds)
  | child _ direct ih => exact ih.child direct

/-- An address leads to every construct of a program. -/
theorem Has.reaches {construct : Construct} (has : p.Has construct) : p.Reaches construct := by
  cases construct with
  | classDecl decl => exact reaches_class has
  | feature decl =>
    obtain ⟨outer, declared, mem⟩ := has
    exact reaches_feature declared mem
  | formal decl =>
    obtain ⟨outer, declared, feature, inside, mem⟩ := has
    exact (reaches_feature declared inside).part (Feature.mem_positions_of_formal mem)
  | branch decl =>
    obtain ⟨e, contained, mem⟩ := has
    exact (reaches_expr contained).branch mem
  | expr e => exact reaches_expr has

/-- What stands at an address has the first line that is stated from there outwards. -/
theorem line_construct? (file : String) (p : Program) (address : List Nat) :
    ((Program.ofSource file p).construct? address).map SelfTyped.Construct.line =
      (p.site? address).map Site.line := by
  rw [construct?_ofSource]
  cases found : p.site? address with
  | none => rfl
  | some site => exact congrArg some (Site.line_construct file (site?_proper found))

/-- What states no line has the line of the construct around it. -/
theorem line_of_silent {number : Nat} (file : String) (found : p.site? address = some site)
    (here : site.parts[number]? = some inner) (silent : inner.position.line = none) :
    ((Program.ofSource file p).construct? (address ++ [number])).map SelfTyped.Construct.line =
      ((Program.ofSource file p).construct? address).map SelfTyped.Construct.line := by
  obtain ⟨position, -, rfl⟩ := List.mem_map.mp (List.mem_of_getElem? here)
  have unstated : position.line = none := silent
  rw [line_construct?, line_construct?, site?_append found, here, found, Option.map_some,
    Option.map_some, Site.line, Site.lines, unstated]
  rfl

/-- **Lines are inherited.**  An address leads to every construct of a source program.  In the
program that it stands for, an address leads to what stands at the site of that address, and this
has the first line that is stated from the site outwards, or line 1.  A construct that states no
line has the line of the one it is inside of; so have a receiver and an initializer that were left
out. -/
theorem lines_inherited (file : String) (p : Program) :
    (∀ construct, p.Has construct → p.Reaches construct) ∧
      (∀ address, (Program.ofSource file p).construct? address =
        (p.site? address).map (Site.construct file)) ∧
      (∀ address, ((Program.ofSource file p).construct? address).map SelfTyped.Construct.line =
        (p.site? address).map fun site => inheritedLine (site.position.line :: site.around)) ∧
      ∀ address number outer inner, p.site? address = some outer →
        outer.parts[number]? = some inner → inner.position.line = none →
        ((Program.ofSource file p).construct? (address ++ [number])).map SelfTyped.Construct.line =
          ((Program.ofSource file p).construct? address).map SelfTyped.Construct.line :=
  ⟨fun _ => Has.reaches, construct?_ofSource file p, line_construct? file p,
    fun _ _ _ _ => line_of_silent file⟩

/-- A class that states no line; a method on line 5, whose body is a `case` without a line; a branch
on line 7, and in it a `let` without an initializer. -/
def unevenLines : Program :=
  ⟨[⟨"Main", none, none, none,
    [.method ⟨"main", [], "Int",
      ⟨none, .case ⟨none, .object Known.self⟩
        [⟨"m", "Main", ⟨none, .letIn "x" "Int" none ⟨none, .object "x"⟩⟩, some 7⟩]⟩, some 5⟩]⟩]⟩

/-- The class is on line 1, the scrutinee on line 5, the missing initializer on line 7. -/
theorem lines_inherited_uneven :
    let p := unevenLines
    let lineAt address :=
      ((Program.ofSource "main.cl" p).construct? address).map SelfTyped.Construct.line
    (∀ decl ∈ p.classes, p.Reaches (.classDecl decl)) ∧
      lineAt [0] = some 1 ∧ lineAt [0, 0, 0, 0] = some 5 ∧
      p.site? [0, 0, 0, 1, 0, 0] = some ⟨.omittedInit, [none, some 7, none, some 5, none]⟩ ∧
      lineAt [0, 0, 0, 1, 0, 0] = some 7 ∧ lineAt [0, 0, 0, 1, 0, 0] = lineAt [0, 0, 0, 1, 0] := by
  intro p lineAt
  obtain ⟨reaches, -, line, silent⟩ := lines_inherited "main.cl" p
  exact ⟨fun decl mem => reaches (.classDecl decl) mem, line [0], line [0, 0, 0, 0], rfl,
    line [0, 0, 0, 1, 0, 0], silent [0, 0, 0, 1, 0] 0 _ _ rfl rfl rfl⟩

end Program

end Source

end SelfTyped
