/-
SelfTyped.Proofs.EnteredNames — which texts lowering leaves in the table.

`Source.Program.names` lists texts in the order in which lowering enters
them.  That order is of no consequence here: a text is in the list if some
construct of the program has it for a name, a file or a literal.  For
expressions this is an induction over the tree in both directions, from
`Form.mem_names`, which passes from an expression to the ones directly
inside it.

Since a text has one entry, the size of the table is the number of these
texts, with those that every table knows and those that stand for what was
left out.
-/
import Mathlib.Data.Set.Card
import SelfTyped.Proofs.Lowering

namespace SelfTyped

namespace Source

variable {text : Name}

/-! ## Expressions -/

theorem namesOfItems_eq_flatMap (items : List Expr) :
    namesOfItems items = items.flatMap Expr.names := by
  induction items with
  | nil => rfl
  | cons item rest ih => rw [namesOfItems, ih, List.flatMap_cons]

theorem namesOfBranches_eq_flatMap (branches : List Branch) :
    namesOfBranches branches =
      branches.flatMap fun branch => branch.name :: branch.type :: branch.body.names := by
  induction branches with
  | nil => rfl
  | cons branch rest ih =>
    obtain ⟨name, type, body, line⟩ := branch
    rw [namesOfBranches, ih, List.flatMap_cons]
    rfl

theorem Form.mem_names {form : Form} :
    text ∈ form.names ↔
      text ∈ form.ownNames ∨ (∃ branch ∈ form.branches, text ∈ (Construct.branch branch).ownNames) ∨
        ∃ child ∈ form.children, text ∈ child.names := by
  cases form with
  | dispatch receiver | staticDispatch receiver =>
    cases receiver <;>
    simp [names, ownNames, branches, children, namesOfItems_eq_flatMap, or_assoc, or_left_comm]
  | letIn name type init =>
    cases init <;> simp [names, ownNames, branches, children, or_assoc]
  | case scrutinee arms =>
    simp only [names, ownNames, branches, children, namesOfBranches_eq_flatMap, List.mem_append,
      List.mem_flatMap, List.mem_cons, exists_eq_or_imp, List.mem_map, Construct.ownNames,
      List.not_mem_nil, or_false, false_or, and_or_left, exists_or, or_assoc,
      exists_exists_and_eq_and]
    exact or_left_comm.trans (or_congr_right or_left_comm)
  | _ => simp [names, ownNames, branches, children, namesOfItems_eq_flatMap]

theorem Expr.names_eq (e : Expr) : e.names = e.form.names := by
  cases e
  rfl

/-- What is contained in an expression directly inside another is contained in that one. -/
theorem Expr.Contains.of_child {e child node : Expr} (mem : child ∈ e.form.children)
    (contained : child.Contains node) : e.Contains node := by
  induction contained with
  | self => exact .child .self mem
  | child _ inside ih => exact .child ih inside

/-- The names of an expression are those of the expressions that it consists of, and of their
branches. -/
theorem Expr.mem_names {e : Expr} :
    text ∈ e.names ↔ ∃ node, e.Contains node ∧ (text ∈ node.form.ownNames ∨
      ∃ branch ∈ node.form.branches, text ∈ (Construct.branch branch).ownNames) := by
  constructor
  · induction e using Expr.children_induction with
    | step line form ih =>
      intro mem
      rcases Form.mem_names.mp mem with own | branch | ⟨child, inside, mem⟩
      · exact ⟨_, .self, .inl own⟩
      · exact ⟨_, .self, .inr branch⟩
      · obtain ⟨node, contained, has⟩ := ih child inside mem
        exact ⟨node, .of_child inside contained, has⟩
  · intro ⟨node, contained, has⟩
    have here : text ∈ node.names := by
      rw [Expr.names_eq]
      exact Form.mem_names.mpr (has.imp_right .inl)
    clear has
    induction contained with
    | self => exact here
    | @child outer inner _ inside ih =>
      refine ih ?_
      rw [Expr.names_eq]
      exact Form.mem_names.mpr (.inr (.inr ⟨inner, inside, here⟩))

/-! ## Declarations -/

theorem Feature.mem_names {feature : Feature} :
    text ∈ feature.names ↔
      text ∈ feature.ownNames ∨ (∃ formal ∈ feature.formals, text ∈ formal.names) ∨
        ∃ root ∈ feature.root?, text ∈ root.names := by
  cases feature with
  | attr decl =>
    obtain ⟨name, type, init, line⟩ := decl
    cases init <;> simp [names, ownNames, formals, root?, or_comm, or_assoc]
  | method decl =>
    simp [names, ownNames, formals, root?, or_comm, or_assoc]

theorem Class.mem_names {decl : Class} :
    text ∈ decl.names ↔
      text ∈ (Construct.classDecl decl).ownNames ∨
        ∃ feature ∈ decl.features, text ∈ feature.names := by
  simp [names, Construct.ownNames, or_assoc]

namespace Program

variable {p : Program}

theorem mentions_of_mem_names (mem : text ∈ p.names) : p.Mentions text := by
  obtain ⟨decl, declared, mem⟩ := List.mem_flatMap.mp mem
  rcases Class.mem_names.mp mem with own | ⟨feature, inside, mem⟩
  · exact ⟨.classDecl decl, declared, own⟩
  rcases Feature.mem_names.mp mem with own | ⟨formal, takes, own⟩ | ⟨root, holds, mem⟩
  · exact ⟨.feature feature, ⟨decl, declared, inside⟩, own⟩
  · exact ⟨.formal formal, ⟨decl, declared, feature, inside, takes⟩, own⟩
  obtain ⟨node, contained, has⟩ := Expr.mem_names.mp mem
  have here : p.Contains node := ⟨decl, declared, feature, inside, root, holds, contained⟩
  rcases has with own | ⟨branch, is, own⟩
  · exact ⟨.expr node, here, own⟩
  · exact ⟨.branch branch, ⟨node, here, is⟩, own⟩

theorem mem_names_of_class {decl : Class} (declared : decl ∈ p.classes) (mem : text ∈ decl.names) :
    text ∈ p.names :=
  List.mem_flatMap.mpr ⟨decl, declared, mem⟩

theorem mem_names_of_feature {decl : Class} {feature : Feature} (declared : decl ∈ p.classes)
    (inside : feature ∈ decl.features) (mem : text ∈ feature.names) : text ∈ p.names :=
  mem_names_of_class declared (Class.mem_names.mpr (.inr ⟨feature, inside, mem⟩))

theorem mem_names_of_contains {e : Expr} (contained : p.Contains e)
    (has : text ∈ e.form.ownNames ∨
      ∃ branch ∈ e.form.branches, text ∈ (Construct.branch branch).ownNames) : text ∈ p.names := by
  obtain ⟨decl, declared, feature, inside, root, holds, contained⟩ := contained
  have mem : text ∈ root.names := Expr.mem_names.mpr ⟨e, contained, has⟩
  exact mem_names_of_feature declared inside
    (Feature.mem_names.mpr (.inr (.inr ⟨root, holds, mem⟩)))

/-- The names of a program are those of its constructs. -/
theorem mem_names : text ∈ p.names ↔ p.Mentions text := by
  refine ⟨mentions_of_mem_names, fun ⟨construct, has, own⟩ => ?_⟩
  cases construct with
  | classDecl decl => exact mem_names_of_class has (Class.mem_names.mpr (.inl own))
  | feature feature =>
    obtain ⟨decl, declared, inside⟩ := has
    exact mem_names_of_feature declared inside (Feature.mem_names.mpr (.inl own))
  | formal formal =>
    obtain ⟨decl, declared, feature, inside, takes⟩ := has
    exact mem_names_of_feature declared inside
      (Feature.mem_names.mpr (.inr (.inl ⟨formal, takes, own⟩)))
  | branch branch =>
    obtain ⟨e, contained, is⟩ := has
    exact mem_names_of_contains contained (.inr ⟨branch, is, own⟩)
  | expr e => exact mem_names_of_contains has (.inl own)

end Program

end Source

/-! ## Tables -/

namespace NameTable

variable {text : Name}

theorem mem_entries_internAll {table : NameTable} {texts : List Name} :
    text ∈ (table.internAll texts).entries ↔ text ∈ table.entries ∨ text ∈ texts := by
  rw [internAll_eq_after, correct.mem_texts_after]
  simp [TableCall.interned, TableCall.slices, TableCall.slice?]

theorem nodup_internAll {table : NameTable} (distinct : table.entries.Nodup) (texts : List Name) :
    (table.internAll texts).entries.Nodup := by
  rw [internAll_eq_after]
  exact correct.nodup_texts_after distinct _

/-- The size of a table is the number of texts that are found in it. -/
theorem size_eq_ncard {table : NameTable} (distinct : table.entries.Nodup) :
    table.size = Set.ncard {text | (table.lookup? text).isSome} := by
  have entered : {text | (table.lookup? text).isSome} = (table.entries.toFinset : Set Name) := by
    ext text
    exact (correct.found_iff table text).trans List.mem_toFinset.symm
  rw [entered, Set.ncard_coe_finset, List.toFinset_card_of_nodup distinct, size]

end NameTable

/-! ## Lowering -/

namespace Interned

variable {file : String} {source : Source.Program} {text : Name}

/-- The texts that are in a new table after a program from the file `file` was lowered into it:
those that every table knows, those that stand for what was left out, and those of the program. -/
def Entered (file : String) (source : Source.Program) (text : Name) : Prop :=
  text = Known.self ∨ text = Known.selfType ∨ text = Known.object ∨ text = file ∨
    source.Mentions text

theorem lookup?_isSome_iff :
    ((NameTable.initial.internProgram file source).lookup? text).isSome ↔
      Entered file source text := by
  have found := NameTable.correct.found_iff (NameTable.initial.internProgram file source) text
  refine found.trans ?_
  rw [NameTable.internProgram, NameTable.mem_entries_internAll, List.mem_cons, List.mem_cons,
    Source.Program.mem_names]
  simp [NameTable.initial, Entered, or_assoc]

theorem size_internProgram (file : String) (source : Source.Program) :
    (NameTable.initial.internProgram file source).size =
      Set.ncard {text | Entered file source text} := by
  have distinct : (NameTable.initial.internProgram file source).entries.Nodup :=
    NameTable.nodup_internAll (by decide) _
  rw [NameTable.size_eq_ncard distinct]
  simp only [lookup?_isSome_iff]

/-- The symbols of a table, and any others for the texts that are not in it. -/
theorem spelled_getD (table : NameTable) (others : Name → Symbol) :
    NameTable.Spelled (fun text => (table.lookup? text).getD (others text)) table := by
  intro text symbol found
  show (table.lookup? text).getD _ = symbol
  rw [found, Option.getD_some]

/-- **Lowering enters exactly the names of a program.**  A program that is lowered into a new table
is lowered.  The texts found in the table afterwards are those that every table knows, those that
stand for what was left out, and the names, files and literals of the program, and the table has as
many entries as there are of these.  In the program that results each name is replaced by the symbol
that is found for it: what other texts might be given as symbols is of no consequence. -/
theorem lowering_enters_names (file : String) (source : Source.Program) :
    ∃ p table, Program.lower? file source .initial = some (p, table) ∧
      (∀ text, (table.lookup? text).isSome ↔ Entered file source text) ∧
      table.size = Set.ncard {text | Entered file source text} ∧
      ∀ symbolOf : Name → Symbol,
        (∀ text symbol, table.lookup? text = some symbol → symbolOf text = symbol) →
        p = Program.ofNames symbolOf (.ofSource file source) := by
  have knowsSelf : Known.self ∈ NameTable.initial.entries := List.mem_cons_self ..
  have lowered := Program.lower?_eq _ file source knowsSelf (spelled_getD _ (Symbol.mk 0))
  refine ⟨_, _, lowered, fun _ => lookup?_isSome_iff, size_internProgram file source,
    fun symbolOf spelled => ?_⟩
  have same := lowered.symm.trans (Program.lower?_eq symbolOf file source knowsSelf spelled)
  exact congrArg Prod.fst (Option.some.inj same)

/-- A class with an attribute, initialized with the name of the class as a literal.  Lowering enters
two texts of the class, two of the attribute, and the literal is known by then. -/
theorem lowering_enters_names_attribute :
    let source : Source.Program :=
      ⟨[⟨"Main", none, none, none, [.attr ⟨"name", "String", some ⟨none, .string "Main"⟩, none⟩]⟩]⟩
    ∃ p table, Program.lower? "main.cl" source .initial = some (p, table) ∧
      table.entries =
        [Known.self, Known.selfType, Known.object, "main.cl", "Main", "name", "String"] ∧
      Entered "main.cl" source "String" ∧
      p = Program.ofNames (fun text => (table.lookup? text).getD ⟨0, text⟩)
        (.ofSource "main.cl" source) := by
  intro source
  obtain ⟨p, table, lowered, found, -, symbols⟩ := lowering_enters_names "main.cl" source
  have is : (table : NameTable) = NameTable.initial.internProgram "main.cl" source :=
    congrArg Prod.snd (Option.some.inj (lowered.symm.trans rfl))
  refine ⟨p, table, lowered, is ▸ rfl, (found "String").mp (is ▸ rfl), symbols _ ?_⟩
  exact spelled_getD table (Symbol.mk 0)

end Interned

end SelfTyped
