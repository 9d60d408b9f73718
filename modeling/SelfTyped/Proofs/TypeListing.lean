/-
SelfTyped.Proofs.TypeListing — the listing of types is complete.

The listing goes over what the checker has left behind, and leaves out what
has no type.  That nothing is left out of an accepted program is shown
against the program itself: its declarations, and the nodes that addresses
lead to.  Each has one line, in the order of the addresses, and the type in
the line is the one that the table has under the address
(`Listing.Complete`).

Two things are needed.  The results for an expression are listed in the order
of its nodes (`typeExpr_traversed`), for which the checker must not have
stopped at the nesting limit anywhere; in an accepted program it has not,
since that would have been reported.  And the first result of a feature is
that for its initializer or body (`Typed.head?_flatten`), which is there
whatever was found.
-/
import SelfTyped.Command.Listing
import SelfTyped.Proofs.Acceptance
import SelfTyped.Proofs.Traversals

namespace SelfTyped

/-! ## Lines -/

/-- There is a class or a feature at an address. -/
inductive Program.Declares (p : Program) : Address → Prop
  | classDecl {i : Nat} {c : Class} (hc : p.classes[i]? = some c) : Declares p [i]
  | feature {i j : Nat} {c : Class} {f : Feature} (hc : p.classes[i]? = some c)
      (hf : c.features[j]? = some f) : Declares p [i, j]

namespace Listing

/-- The line for a declaration, where a table has the types of nodes: the header of a class, or a
feature with the type of its initializer or body. -/
inductive DeclarationLine (p : Program) (types : TypeTable) : Address → String → Prop
  | classDecl {i : Nat} {c : Class} (hc : p.classes[i]? = some c) :
      DeclarationLine p types [i] ("class " ++ c.name ++ " inherits " ++ c.parent)
  | attribute {i j : Nat} {c : Class} {decl : Attribute} {type : Name}
      (hc : p.classes[i]? = some c) (hf : c.features[j]? = some (.attr decl))
      (typed : types.type? [i, j] = some type) :
      DeclarationLine p types [i, j]
        ("  " ++ toString decl.line ++ ": attribute " ++ decl.name ++ " : " ++ decl.type ++
          " (initializer : " ++ type ++ ")")
  | method {i j : Nat} {c : Class} {decl : Method} {type : Name}
      (hc : p.classes[i]? = some c) (hf : c.features[j]? = some (.method decl))
      (typed : types.type? [i, j] = some type) :
      DeclarationLine p types [i, j]
        ("  " ++ toString decl.line ++ ": method " ++ decl.name ++ " : " ++ decl.returnType ++
          " (body : " ++ type ++ ")")

/-- The line for a node: the file of its class, its line, kind and type. -/
inductive ExpressionLine (p : Program) (types : TypeTable) : Address → String → Prop
  | node {i j : Nat} {c : Class} {f : Feature} {path : List Nat} {e : Expr} {type : Name}
      (hc : p.classes[i]? = some c) (hf : c.features[j]? = some f)
      (he : f.root.node? path = some e) (typed : types.type? (i :: j :: path) = some type) :
      ExpressionLine p types (i :: j :: path)
        ("  " ++ c.file ++ ":" ++ toString e.line ++ " " ++ e.form.kindName ++ " : " ++ type)

/-- What the lines of a listing show of a program. -/
structure Complete (p : Program) (types : TypeTable) (declarations expressions : List String) :
    Prop where
  /-- There is a line for every class, and then one for each of its features. -/
  declared : Traversed p.Declares (DeclarationLine p types) declarations
  /-- There is a line for every node, in the order in which a walk visits the nodes. -/
  expressed : ∃ addresses, Traversal p.HasNode (ExpressionLine p types) addresses expressions ∧
    Traversal p.HasNode (fun address visited => p.node? address = some visited.2) addresses p.nodes
  /-- There are as many lines for nodes as there are types. -/
  count : expressions.length = types.size

end Listing

/-! ## Results in pre-order -/

theorem Typed.head?_flatten (node : Typed) :
    node.flatten.head? = some (node.source, some node.type) := by
  cases node with
  | reached | cut =>
    rw [Typed.flatten]
    rfl

/-- A feature is shown with a type, whatever was found. -/
theorem TypedFeature.rootType?_eq (f : TypedFeature) : f.rootType? = some f.node.type := by
  rw [rootType?, nodes, Typed.head?_flatten]
  rfl

namespace Setting

variable {g : Setting} {s : CheckState} {Γ : TypeEnv} {f : Feature}

/-- **Where nothing is found, the results go through the nodes.** -/
theorem typeExpr_traversed (consistent : s.vars.Consistent) {e : Expr}
    (silent : (g.typeExpr s e).findings = []) :
    Traversed (fun path => (e.node? path).isSome = true)
      (fun path entry => ∃ node type, entry = (node, some type) ∧ e.node? path = some node ∧
        ((g.typeExpr s e).node.sub? path).map Typed.type = some type)
      (g.typeExpr s e).node.flatten := by
  induction e using Expr.parts_induction generalizing s with
  | step line form ih =>
    have deep := lt_of_silent silent
    rw [typeExpr_flatten deep consistent]
    refine Expr.traversed ⟨_, _, rfl, rfl, by rw [typeExpr_of_lt deep]; rfl⟩ fun i part hpart => ?_
    have mem := List.mem_of_getElem? hpart
    simp only [Expr.node?_cons, hpart, Option.bind_some, typeExpr_sub?_cons deep consistent hpart]
    exact ih part mem (CheckState.under_deeper consistent part.binder).1
      (part_of_silent consistent silent mem)

end Setting

/-! ## Runs -/

namespace Program

open Listing

variable {p : Program} {h : Hierarchy} {m i j : Nat} {c : Class} {f : Feature} {types : TypeTable}

theorem featureLine_outcome
    (recorded : ∀ i j path, types.type? (i :: j :: path) = (p.typeIn h m).recordedType? i j path)
    (hc : p.classes[i]? = some c) (hf : c.features[j]? = some f) :
    DeclarationLine p types [i, j] (featureLine ⟨f, (outcome h m c f).node⟩) := by
  have typed : types.type? [i, j] = some (outcome h m c f).node.type := by
    rw [recorded, Analysis.recordedType?, typeIn_nodes, hc, Option.bind_some, hf]
    rfl
  rw [featureLine, TypedFeature.rootType?_eq]
  cases f with
  | attr decl => exact .attribute hc hf typed
  | method decl => exact .method hc hf typed

theorem declarations_traversed
    (recorded : ∀ i j path, types.type? (i :: j :: path) = (p.typeIn h m).recordedType? i j path) :
    Traversed p.Declares (DeclarationLine p types) ((p.typeIn h m).classes.flatMap classLines) := by
  rw [typeIn_classes, List.flatMap_map]
  refine .ofItems (fun i c hc => .cons (.classDecl hc) (.classDecl hc) ?_) ?_
  · rw [List.map_map, List.map_eq_flatMap]
    refine .ofItems (fun j f hf => .cons ?_ (featureLine_outcome recorded hc hf) (.nil ?_)) ?_
    · exact ⟨List.cons_ne_nil j [], .feature hc hf⟩
    · rintro address ⟨notRoot, -, declares⟩
      cases declares
      exact notRoot rfl
    · rintro address ⟨notRoot, declares⟩
      cases declares with
      | classDecl => exact absurd rfl notRoot
      | feature hc' hf =>
        rw [hc, Option.some.injEq] at hc'
        subst hc'
        exact ⟨_, [], _, rfl, hf⟩
  · rintro address (hc | ⟨hc, -⟩)
    · exact ⟨_, [], _, rfl, hc⟩
    · exact ⟨_, [_], _, rfl, hc⟩

/-- **No node of an accepted program is left out.** -/
theorem Accepted.expressions_traversed (accepted : p.Accepted h m)
    (recorded : ∀ i j path, types.type? (i :: j :: path) = (p.typeIn h m).recordedType? i j path) :
    Traversed p.HasNode (ExpressionLine p types) ((p.typeIn h m).classes.flatMap exprLines) := by
  rw [typeIn_classes, List.flatMap_map]
  simp only [exprLines, TypedFeature.nodes, List.flatMap_map, List.filterMap_flatMap]
  refine traversed fun i c j f hc hf => ?_
  have silent := accepted.root (List.mem_of_getElem? hc) (List.mem_of_getElem? hf)
  rw [outcome_node]
  refine (Setting.typeExpr_traversed (rootState_consistent h m c f) silent).filterMap ?_
  rintro path _ ⟨node, type, rfl, found, typed⟩
  refine ⟨_, rfl, .node hc hf found ?_⟩
  rw [recorded, Analysis.recordedType?, typeIn_sub? hc hf, typed]

/-- There is a line for every node that has a type. -/
theorem length_exprLines (a : Analysis) : (a.classes.flatMap exprLines).length = a.typeCount := by
  rw [Analysis.typeCount, Analysis.features, List.flatMap_assoc, List.filter_flatMap,
    List.length_flatMap, List.length_flatMap]
  refine congrArg List.sum (List.map_congr_left fun c _ => ?_)
  rw [exprLines, List.length_filterMap_eq_countP, List.countP_eq_length_filter]
  simp only [Option.isSome_map]

/-- **The listing of an accepted program is complete.**  It has a line for every class and feature
in the order of declaration, and then, in the order in which a walk visits them, one for every node
with its file, line, kind and type; these are as many as the table of types has entries.  Nowhere is
a type missing. -/
theorem listing_complete {sink sink' : Sink} {a : Analysis}
    (checked : p.check m sink = (sink', .ok a)) :
    ∃ types declarations expressions, a.table? = some types ∧
      Listing.render a =
        String.join ((declarations ++ "expressions" :: expressions).map (· ++ "\n")) ∧
      Listing.Complete p types declarations expressions ∧
      ∀ c ∈ a.classes, ∀ f ∈ c.features, f.rootType? ≠ none := by
  obtain ⟨h, accepted, rfl⟩ := accepted_of_check checked
  obtain ⟨types, filled, recorded, size⟩ := (p.typeIn h m).table_exact
  obtain ⟨addresses, expressed⟩ := accepted.expressions_traversed recorded
  obtain ⟨addresses', walked⟩ := p.nodes_traversed
  refine ⟨types, (p.typeIn h m).classes.flatMap classLines,
    (p.typeIn h m).classes.flatMap exprLines, filled, ?_, ⟨?_, ?_, ?_⟩, fun c _ f _ => ?_⟩
  · rw [render, lines, List.append_assoc, List.singleton_append]
  · exact declarations_traversed recorded
  · refine ⟨addresses, expressed, ?_⟩
    rw [expressed.unique walked]
    exact walked
  · rw [size, length_exprLines]
  · rw [TypedFeature.rootType?_eq]
    exact Option.some_ne_none _

/-- A subclass in another file, with an attribute that has no initializer. -/
def subclassOfLet : Class :=
  ⟨1, "Leaf", "Main", "leaf.cl", [.attr ⟨2, "leaf", "Leaf", ⟨2, .noExpr⟩⟩]⟩

/-- Two declarations of features in one file, and one in another. -/
theorem listing_complete_two_files :
    ∃ sink a types declarations expressions,
      check ⟨[classWithLet, subclassOfLet]⟩ 1000 Sink.empty = (sink, .ok a) ∧
        a.table? = some types ∧
        Listing.Complete ⟨[classWithLet, subclassOfLet]⟩ types declarations expressions ∧
        expressions.length = 7 ∧
        lines a.classes =
          ["class Main inherits IO", "  3: attribute value : Int (initializer : Int)",
            "  4: method main : SELF_TYPE (body : Main)", "class Leaf inherits Main",
            "  2: attribute leaf : Leaf (initializer : _no_type)", "expressions",
            "  let.cl:3 IntConst : Int", "  let.cl:5 Let : Main", "  let.cl:5 Object : SELF_TYPE",
            "  let.cl:5 Dispatch : Main", "  let.cl:5 Object : Main", "  let.cl:5 Object : Int",
            "  leaf.cl:2 NoExpr : _no_type"] := by
  have checked : check ⟨[classWithLet, subclassOfLet]⟩ 1000 Sink.empty = (_, .ok _) := rfl
  obtain ⟨types, declarations, expressions, filled, -, complete, -⟩ := listing_complete checked
  refine ⟨_, _, types, declarations, expressions, checked, filled, complete, ?_, by cbv⟩
  rw [complete.count]
  cases filled
  rfl

end Program

end SelfTyped
