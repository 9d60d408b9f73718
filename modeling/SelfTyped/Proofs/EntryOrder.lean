/-
SelfTyped.Proofs.EntryOrder — the order of entries decides nothing but kinds.

JSON objects have no order, but a text has one.  Here is what becomes of it:
two texts that differ in the order of entries only give the same program, or
none, if no key is used twice and no expression has two keys that name kinds
(`Program.parse_reordered`).  An expression with two such keys is not refused.
It is read as the kind that comes first, so that the same entries in another
order are another program (`Program.kinds_in_order`).

That readers respect the order of entries is shown for nodes in general in
`AlikeNodes`.  Drafts and complete values are such nodes (`mirrors_drafts`,
`mirrors_values`), so what is left is to go through the records of a program.
-/
import SelfTyped.Proofs.AlikeNodes
import SelfTyped.Proofs.JsonGrammar

namespace SelfTyped

namespace Source

open Json (Draft)

variable {α β : Type}

/-! ## Drafts and values -/

section Instances

variable {place : Place}

theorem eq_of_length_filterMap_le_one {f : α → Option β} {as : List α}
    (single : (as.filterMap f).length ≤ 1) {a a' : α} (ha : a ∈ as) (ha' : a' ∈ as)
    (some : (f a).isSome = true) (some' : (f a').isSome = true) : a' = a := by
  obtain ⟨before, after, rfl⟩ := List.append_of_mem ha
  obtain ⟨b, is⟩ := Option.isSome_iff_exists.mp some
  rw [List.filterMap_append, List.filterMap_cons_some is, List.length_append,
    List.length_cons] at single
  have none : ∀ cells : List α, (cells.filterMap f).length = 0 → a' ∉ cells := by
    intro cells empty mem
    rw [List.length_eq_zero_iff, List.filterMap_eq_nil_iff] at empty
    rw [empty a' mem] at some'
    cases some'
  rcases List.mem_append.mp ha' with mem | mem
  · exact absurd mem (none before (by omega))
  · rcases List.mem_cons.mp mem with same | mem
    · exact same
    · exact absurd mem (none after (by omega))

theorem keys_keyed (cells : List (String × Draft)) :
    Draft.keys (keyed cells) = cells.map Prod.fst := by
  rw [Draft.keys, keyed, List.filterMap_map]
  exact congrFun List.filterMap_eq_map' cells

theorem mem_keyed {cells : List (String × Draft)} {key : String} {x : Draft} :
    (some key, x) ∈ keyed cells ↔ (key, x) ∈ cells := by
  rw [keyed, List.mem_map]
  constructor
  · rintro ⟨cell, mem, ⟨⟩⟩
    exact mem
  · exact fun mem => ⟨_, mem, rfl⟩

theorem keyed_injective {cells cells' : List (String × Draft)} (same : keyed cells = keyed cells') :
    cells = cells' := by
  refine List.map_injective_iff.mpr (fun cell cell' is => ?_) same
  obtain ⟨key, value⟩ := Prod.mk.inj is
  exact Prod.ext (Option.some.inj key) value

theorem exists_keyed {entries : List (Option String × Draft)}
    (readable : ∀ entry ∈ entries, entry.1.isSome = true) : ∃ cells, entries = keyed cells := by
  induction entries with
  | nil => exact ⟨[], rfl⟩
  | cons entry entries ih =>
    rw [List.forall_mem_cons] at readable
    obtain ⟨cells, rfl⟩ := ih readable.2
    obtain ⟨- | key, value⟩ := entry
    · cases readable.1
    · exact ⟨(key, value) :: cells, rfl⟩

theorem Alike.item {items : List Draft} {closed : Bool} {x : Draft} {i : Nat}
    (distinct : (Draft.array items closed).distinctKeys = true)
    (clear : unambiguous place (.array items closed) = true) (is : items[i]? = some x) {y : Draft}
    (reordered : x.Reordered y) : Alike (place.item i) x y :=
  ⟨reordered, (Draft.orderless_distinctKeys.array.mp distinct).2 x (List.mem_of_getElem? is),
    unambiguous_array.mp clear i x is⟩

theorem Alike.entry {entries : List (Option String × Draft)} {closed : Bool} {x y : Draft}
    {key : String} (distinct : (Draft.object entries closed).distinctKeys = true)
    (clear : unambiguous place (.object entries closed) = true) (mem : (some key, x) ∈ entries)
    (reordered : x.Reordered y) : Alike (place.entry key) x y :=
  ⟨reordered, (Draft.orderless_distinctKeys.object.mp distinct).2 _ mem,
    (unambiguous_object.mp clear).2 key x mem⟩

/-- The entries of reordered objects without faults. -/
theorem sameEntries_object {cells : List (String × Draft)} {closed : Bool} {y : Draft}
    (alike : Alike place (.object (keyed cells) closed) y) :
    ∃ cells', y = .object (keyed cells') closed ∧ SameEntries Alike place cells cells' := by
  obtain ⟨reordered, distinct, clear⟩ := alike
  obtain ⟨entries', rfl, forth, back⟩ := reordered.of_object
  have distinct' := reordered.distinctKeys distinct
  obtain ⟨cells', rfl⟩ : ∃ cells', entries' = keyed cells' := by
    refine exists_keyed ?_
    rintro ⟨key, b⟩ mem
    obtain ⟨a, ha, -⟩ := back key b mem
    obtain ⟨cell, -, ⟨⟩⟩ := List.mem_map.mp ha
    rfl
  refine ⟨cells', rfl, ⟨fun {key x} mem => ?_, fun {key y} mem => ?_, ?_, ?_⟩⟩
  · obtain ⟨y, hy, reordered⟩ := forth (some key) x (mem_keyed.mpr mem)
    exact ⟨y, mem_keyed.mp hy, .entry distinct clear (mem_keyed.mpr mem) reordered⟩
  · obtain ⟨x, hx, reordered⟩ := back (some key) y (mem_keyed.mpr mem)
    exact ⟨x, mem_keyed.mp hx, .entry distinct clear hx reordered⟩
  · have keys := (Draft.orderless_distinctKeys.object.mp (reordered.distinctKeys distinct)).1
    rwa [← Draft.keys_eq, keys_keyed] at keys
  · intro isExpr cell hcell cell' hcell' named named'
    have single := (unambiguous_object.mp clear).1 isExpr
    rw [kindsNamed, keys_keyed] at single
    exact eq_of_length_filterMap_le_one single (List.mem_map_of_mem hcell')
      (List.mem_map_of_mem hcell) named' named

theorem sameShape_drafts {x y : Draft} (alike : Alike place x y) :
    SameShape Alike place (Node.shape x) (Node.shape y) := by
  cases x with
  | array items closed =>
    obtain ⟨reordered, distinct, clear⟩ := alike
    obtain ⟨items', rfl, length, each⟩ := reordered.of_array
    refine .sequence fun cells intact => ?_
    obtain ⟨rfl, rfl⟩ := sequence_intact intact
    exact ⟨items', List.append_nil _, length, fun first second =>
      .item distinct clear first (each _ _ _ first second)⟩
  | object entries closed =>
    obtain ⟨entries', rfl, -⟩ := alike.reordered.of_object
    refine .mapping fun cells intact => ?_
    obtain ⟨rfl, rfl⟩ := mapping_intact intact
    obtain ⟨cells', ⟨⟩, same⟩ := sameEntries_object alike
    exact ⟨cells', mapping_keyed cells', same⟩
  | fault | unpaired | tooLarge =>
    cases alike.reordered
    exact .fault _ _
  | null | bool | number | string =>
    cases alike.reordered
    exact .scalar _

theorem mirrors_drafts : Mirrors Alike where
  shape := sameShape_drafts
  skip {place x y} alike is := by
    have complete : x.isComplete = true := by
      by_contra incomplete
      exact nomatch (if_neg incomplete).symm.trans is
    exact if_pos (alike.reordered.isComplete complete)
  buffer {place x y j} alike is := by
    obtain rfl := buffer_eq_ok is
    have value := alike.reordered.toJson?_isSome (by rw [Draft.toJson?_ofJson, Option.isSome_some])
    obtain ⟨j', is'⟩ := Option.isSome_iff_exists.mp value
    refine ⟨j', by simp only [Node.buffer, is'], ?_⟩
    rwa [Draft.eq_ofJson is'] at alike

/-- The drafts of entries. -/
def drafts (entries : List (String × Json)) : List (String × Draft) :=
  entries.map fun entry => (entry.1, .ofJson entry.2)

theorem ofJson_object (entries : List (String × Json)) :
    Draft.ofJson (.object entries) = .object (keyed (drafts entries)) true := by
  rw [Draft.ofJson, Draft.ofEntries_eq, keyed, drafts, List.map_map]
  rfl

theorem mem_drafts {entries : List (String × Json)} {key : String} {x : Draft} :
    (key, x) ∈ drafts entries ↔ ∃ j, (key, j) ∈ entries ∧ x = .ofJson j := by
  rw [drafts, List.mem_map]
  constructor
  · rintro ⟨entry, mem, ⟨⟩⟩
    exact ⟨entry.2, mem, rfl⟩
  · rintro ⟨j, mem, rfl⟩
    exact ⟨(key, j), mem, rfl⟩

theorem sameItems_values {items items' : List Json}
    (alike : AlikeValues place (.array items) (.array items')) :
    SameItems AlikeValues place items items' := by
  obtain ⟨drafts', is, length, each⟩ := alike.reordered.of_array
  obtain rfl : Draft.ofItems items' = drafts' := (Draft.array.inj is).1
  rw [Draft.ofItems_eq, Draft.ofItems_eq, List.length_map, List.length_map] at length
  refine ⟨length, fun {i j j'} first second => ?_⟩
  have first' : (Draft.ofItems items)[i]? = some (.ofJson j) := by
    rw [Draft.ofItems_eq, List.getElem?_map, first]
    rfl
  have second' : (Draft.ofItems items')[i]? = some (.ofJson j') := by
    rw [Draft.ofItems_eq, List.getElem?_map, second]
    rfl
  exact .item alike.distinct alike.clear first' (each i _ _ first' second')

theorem sameEntries_values {entries entries' : List (String × Json)}
    (alike : AlikeValues place (.object entries) (.object entries')) :
    SameEntries AlikeValues place entries entries' := by
  rw [AlikeValues, ofJson_object, ofJson_object] at alike
  obtain ⟨cells', is, same⟩ := sameEntries_object alike
  obtain rfl : drafts entries' = cells' := keyed_injective (Draft.object.inj is).1
  refine ⟨fun {key j} mem => ?_, fun {key j'} mem => ?_, ?_, ?_⟩
  · obtain ⟨y, hy, alike⟩ := same.forth (mem_drafts.mpr ⟨j, mem, rfl⟩)
    obtain ⟨j', hj', rfl⟩ := mem_drafts.mp hy
    exact ⟨j', hj', alike⟩
  · obtain ⟨x, hx, alike⟩ := same.back (mem_drafts.mpr ⟨j', mem, rfl⟩)
    obtain ⟨j, hj, rfl⟩ := mem_drafts.mp hx
    exact ⟨j, hj, alike⟩
  · have keys := same.distinct
    rw [drafts, List.map_map] at keys
    exact keys
  · exact fun isExpr cell hcell cell' hcell' =>
      same.kinds isExpr _ (mem_drafts.mpr ⟨_, hcell, rfl⟩) _ (mem_drafts.mpr ⟨_, hcell', rfl⟩)

/-- Complete values show what their drafts show. -/
theorem sameShape_values {j j' : Json} (alike : AlikeValues place j j') :
    SameShape AlikeValues place (Node.shape j) (Node.shape j') := by
  cases j with
  | null | bool | number | string =>
    obtain rfl := Draft.ofJson_injective
      (alike.reordered.eq_of_flat (fun _ _ => nofun) fun _ _ => nofun)
    exact .scalar _
  | array items =>
    obtain ⟨_, is, -⟩ := alike.reordered.of_array
    cases j' <;> cases is
    refine .sequence fun items' intact => ?_
    obtain rfl := List.map_injective_iff.mpr (fun _ _ => Except.ok.inj) intact
    exact ⟨_, rfl, sameItems_values alike⟩
  | object entries =>
    obtain ⟨_, is, -⟩ := alike.reordered.of_object
    cases j' <;> cases is
    refine .mapping fun cells intact => ?_
    obtain rfl := List.map_injective_iff.mpr (fun _ _ => Except.ok.inj) intact
    exact ⟨_, rfl, sameEntries_values alike⟩

theorem mirrors_values : Mirrors AlikeValues where
  shape := sameShape_values
  skip _ _ := rfl
  buffer {place j j' k} alike is := by
    cases is
    exact ⟨j', rfl, alike⟩

end Instances

/-! ## Programs -/

theorem respects_jsonExpr (fuel : Nat) : Respects AlikeValues .expr (readJsonExpr fuel) := by
  induction fuel with
  | zero => exact fun _ _ _ _ is => nomatch is
  | succ fuel ih => exact respects_exprWith mirrors_values mirrors_values ih

/-- Values that are alike are equally deep, so they are read with the same fuel. -/
theorem respects_innerExpr : Respects AlikeValues .expr readInnerExpr := by
  intro j j' e alike is
  have same : j.depth = j'.depth := by
    rw [← Draft.depth_ofJson, ← Draft.depth_ofJson, alike.reordered.depth_eq]
  rw [readInnerExpr, ← same]
  exact respects_jsonExpr _ j j' e alike is

theorem respects_expr : Respects Alike .expr readExpr :=
  respects_exprWith mirrors_drafts mirrors_values respects_innerExpr

theorem respects_formal : Respects Alike .formal readFormal := by
  have aligned : Aligned Alike .formal [.text "name", .text "type", .lineOrNull "line"] :=
    .cons ⟨rfl, respects_textField mirrors_drafts⟩ <|
      .cons ⟨rfl, respects_textField mirrors_drafts⟩ <|
        .cons ⟨rfl, respects_lineField mirrors_drafts⟩ .nil
  exact respects_record mirrors_drafts aligned fun _ _ agrees => by
    simp only [agrees.require, agrees.optional]

theorem respects_attribute : Respects Alike .attr readAttribute := by
  have aligned : Aligned Alike .attr
      [.text "name", .text "type", .exprOrNull readExpr "init", .lineOrNull "line"] :=
    .cons ⟨rfl, respects_textField mirrors_drafts⟩ <|
      .cons ⟨rfl, respects_textField mirrors_drafts⟩ <|
        .cons ⟨rfl, (respects_optional mirrors_drafts respects_expr).map _⟩ <|
          .cons ⟨rfl, respects_lineField mirrors_drafts⟩ .nil
  exact respects_record mirrors_drafts aligned fun _ _ agrees => by
    simp only [agrees.require, agrees.optional]

theorem respects_method : Respects Alike .method readMethod := by
  have aligned : Aligned Alike .method
      [.text "name", .items .formals readFormal "formals", .text "return_type",
        .expr readExpr "body", .lineOrNull "line"] :=
    .cons ⟨rfl, respects_textField mirrors_drafts⟩ <|
      .cons ⟨rfl, (respects_items mirrors_drafts respects_formal).map _⟩ <|
        .cons ⟨rfl, respects_textField mirrors_drafts⟩ <|
          .cons ⟨rfl, respects_expr.map _⟩ <|
            .cons ⟨rfl, respects_lineField mirrors_drafts⟩ .nil
  exact respects_record mirrors_drafts aligned fun _ _ agrees => by
    simp only [agrees.require, agrees.optional]

theorem respects_featureOf (key : String) :
    Respects Alike (Place.entry .feature key) (readFeatureOf key) := by
  intro x y feature alike is
  rw [readFeatureOf] at is ⊢
  split at is
  · next named =>
    obtain rfl := beq_iff_eq.mp named
    rw [if_pos named]
    exact respects_attribute.map _ x y feature alike is
  · next notAttribute =>
    rw [if_neg notAttribute]
    split at is
    · next named =>
      obtain rfl := beq_iff_eq.mp named
      rw [if_pos named]
      exact respects_method.map _ x y feature alike is
    · cases is

/-- A feature is an object with a single entry, which has no order. -/
theorem respects_feature : Respects Alike .feature readFeature := by
  intro x y feature alike is
  rw [readFeature.eq_def] at is
  split at is
  · next key value rest closed =>
    obtain ⟨feature', reads, is⟩ := bind_eq_ok.mp is
    split at is
    · next single =>
      cases is
      obtain ⟨empty, rfl⟩ := Bool.and_eq_true_iff.mp single
      obtain rfl := List.isEmpty_iff.mp empty
      have alike : Alike .feature (.object (keyed [(key, value)]) true) y := alike
      obtain ⟨cells', rfl, same⟩ := sameEntries_object alike
      obtain ⟨value', hvalue, alike'⟩ := same.forth (List.mem_singleton_self (key, value))
      have keys : ∀ cell ∈ cells', cell.1 = key := by
        rintro ⟨key', value''⟩ mem
        obtain ⟨_, hx, -⟩ := same.back mem
        exact (Prod.mk.inj (List.mem_singleton.mp hx)).1
      rw [eq_singleton_of_keys same.distinct keys hvalue]
      exact bind_eq_ok.mpr ⟨feature, respects_featureOf key _ _ _ alike' reads, rfl⟩
    · cases is
  · split at is <;> cases is
  · cases is

theorem respects_class : Respects Alike .classDecl readClass := by
  have aligned : Aligned Alike .classDecl
      [.text "name", .textOrNull "parent", .textOrNull "filename", .lineOrNull "line",
        .items .features readFeature "features"] :=
    .cons ⟨rfl, respects_textField mirrors_drafts⟩ <|
      .cons ⟨rfl, respects_textOrNull mirrors_drafts⟩ <|
        .cons ⟨rfl, respects_textOrNull mirrors_drafts⟩ <|
          .cons ⟨rfl, respects_lineField mirrors_drafts⟩ <|
            .cons ⟨rfl, (respects_items mirrors_drafts respects_feature).map _⟩ .nil
  exact respects_record mirrors_drafts aligned fun _ _ agrees => by
    simp only [agrees.require, agrees.optional]

theorem respects_program : Respects Alike .program readProgram := by
  have aligned : Aligned Alike .program [.items .classes readClass "classes"] :=
    .cons ⟨rfl, (respects_items mirrors_drafts respects_class).map _⟩ .nil
  exact respects_record mirrors_drafts aligned fun _ _ agrees => by simp only [agrees.require]

namespace Program

open Json (exact_array exact_bool exact_integer exact_object exact_string Fits Grammar.Value)

/-! ## Single bodies -/

/-- The value of a program with a single method that has the given body. -/
def around (body : Json) : Json :=
  .object [("classes", .array [.object [("name", .string "Main"),
    ("features", .array [.object [("method", .object [("name", .string "main"),
      ("return_type", .string "Int"), ("body", body)])]])]])]

/-- A program with a single method that has the given body. -/
def withBody (body : Expr) : Program :=
  ⟨[⟨"Main", none, none, none, [.method ⟨"main", [], "Int", body, none⟩]⟩]⟩

/-- A body may be reordered in its place. -/
theorem reordered_around {body body' : Json}
    (reordered : (Draft.ofJson body).Reordered (.ofJson body')) :
    (Draft.ofJson (around body)).Reordered (.ofJson (around body')) := by
  have decl := @Draft.Reordered.object [(some "name", .string "main", .string "main"),
    (some "return_type", .string "Int", .string "Int"),
    (some "body", .ofJson body, .ofJson body')] _ true
    (List.forall_mem_cons.mpr ⟨.same _, List.forall_mem_cons.mpr ⟨.same _,
      List.forall_mem_singleton.mpr reordered⟩⟩) (.refl _)
  have feature := @Draft.Reordered.object [(some "method", _, _)] _ true
    (List.forall_mem_singleton.mpr decl) (.refl _)
  have features := @Draft.Reordered.array [(_, _)] true (List.forall_mem_singleton.mpr feature)
  have c := @Draft.Reordered.object [(some "name", .string "Main", .string "Main"),
    (some "features", _, _)] _ true
    (List.forall_mem_cons.mpr ⟨.same _, List.forall_mem_singleton.mpr features⟩) (.refl _)
  have classes := @Draft.Reordered.array [(_, _)] true (List.forall_mem_singleton.mpr c)
  exact @Draft.Reordered.object [(some "classes", _, _)] _ true
    (List.forall_mem_singleton.mpr classes) (.refl _)

theorem exact_around {body : Json} (exact : body.Exact) : (around body).Exact := by
  simp [around, exact_object, exact_array, exact_string, exact]

/-! ## Texts -/

theorem parse_of_alike {text text' : String} {draft draft' : Draft}
    (derived : Grammar.Value text.toList draft) (derived' : Grammar.Value text'.toList draft')
    (alike : Alike .program draft draft') {maxDepth : Nat} {p : Program}
    (parsed : parse text maxDepth = .ok p) : parse text' maxDepth = .ok p := by
  have wellFormed := Json.wellFormed_iff.mpr derived
  have wellFormed' := Json.wellFormed_iff.mpr derived'
  obtain ⟨within, read, wellFormed'', reads⟩ := parse_eq_ok_iff.mp parsed
  obtain rfl := wellFormed.unique wellFormed''
  refine parse_eq_ok_iff.mpr ⟨?_, draft', wellFormed', respects_program _ _ p alike reads⟩
  rw [wellFormed.nestingDepth] at within
  rw [wellFormed'.nestingDepth, ← alike.reordered.depth_eq]
  exact within

/-- **The order of entries decides nothing in a text that names every kind once.**  Two texts of
JSON without repeated keys that differ in the order of entries only give the same program or none,
under every limit, if no expression has two keys that name kinds. -/
theorem parse_reordered {text text' : String} {draft draft' : Draft}
    (derived : Grammar.Value text.toList draft) (derived' : Grammar.Value text'.toList draft')
    (reordered : draft.Reordered draft') (distinct : draft.distinctKeys = true)
    (clear : unambiguous .program draft = true) (maxDepth : Nat) (p : Program) :
    parse text maxDepth = .ok p ↔ parse text' maxDepth = .ok p :=
  ⟨parse_of_alike derived derived' ⟨reordered, distinct, clear⟩,
    parse_of_alike derived' derived ⟨reordered.symm, reordered.distinctKeys distinct,
      unambiguous_of_reordered reordered clear⟩⟩

/-- A `let` with its line, both with the entries in the usual order. -/
def orderly : Json :=
  .object [("line", .number (.integer 3)), ("let", .object [("name", .string "x"),
    ("type", .string "Int"),
    ("body", .object [("line", .number (.integer 4)), ("new", .string "A")])])]

/-- The same entries in the opposite order. -/
def backwards : Json :=
  .object [("let", .object [
    ("body", .object [("new", .string "A"), ("line", .number (.integer 4))]),
    ("type", .string "Int"), ("name", .string "x")]), ("line", .number (.integer 3))]

theorem reordered_backwards : (Draft.ofJson orderly).Reordered (.ofJson backwards) := by
  have body := @Draft.Reordered.object [(some "line", .number (.integer 4), .number (.integer 4)),
    (some "new", .string "A", .string "A")] _ true
    (List.forall_mem_cons.mpr ⟨.same _, List.forall_mem_singleton.mpr (.same _)⟩) (.swap _ _ _)
  have fields := @Draft.Reordered.object [(some "name", .string "x", .string "x"),
    (some "type", .string "Int", .string "Int"), (some "body", _, _)] _ true
    (List.forall_mem_cons.mpr ⟨.same _, List.forall_mem_cons.mpr ⟨.same _,
      List.forall_mem_singleton.mpr body⟩⟩) (List.reverse_perm _).symm
  exact @Draft.Reordered.object [(some "line", .number (.integer 3), .number (.integer 3)),
    (some "let", _, _)] _ true
    (List.forall_mem_cons.mpr ⟨.same _, List.forall_mem_singleton.mpr fields⟩) (.swap _ _ _)

theorem exact_orderly : orderly.Exact := by
  simp [orderly, exact_object, exact_string, exact_integer (by decide : Fits 3),
    exact_integer (by decide : Fits 4)]

theorem exact_backwards : backwards.Exact := by
  simp [backwards, exact_object, exact_string, exact_integer (by decide : Fits 3),
    exact_integer (by decide : Fits 4)]

theorem parse_reordered_let :
    ∃ p, parse (around orderly).toText 3 = .ok p ∧ parse (around backwards).toText 3 = .ok p := by
  have wellFormed := Json.wellFormed_toText (exact_around exact_orderly)
  have wellFormed' := Json.wellFormed_toText (exact_around exact_backwards)
  have read : parse (around orderly).toText 3 = .ok (withBody ⟨some 3, .letIn "x" "Int" none
      ⟨some 4, .new "A"⟩⟩) := by
    refine parse_eq_ok_iff.mpr ⟨?_, _, wellFormed, rfl⟩
    rw [wellFormed.nestingDepth]
    decide
  exact ⟨_, read, (parse_reordered (Json.wellFormed_iff.mp wellFormed)
    (Json.wellFormed_iff.mp wellFormed') (reordered_around reordered_backwards) (by decide)
    (by decide) 3 _).mp read⟩

/-- An expression with two kinds. -/
def intFirst : Json :=
  .object [("int", .number (.integer 1)), ("bool", .bool true)]

/-- The same expression in the other order. -/
def boolFirst : Json :=
  .object [("bool", .bool true), ("int", .number (.integer 1))]

theorem reordered_boolFirst : (Draft.ofJson intFirst).Reordered (.ofJson boolFirst) :=
  @Draft.Reordered.object [(some "int", .number (.integer 1), .number (.integer 1)),
    (some "bool", .bool true, .bool true)] _ true
    (List.forall_mem_cons.mpr ⟨.same _, List.forall_mem_singleton.mpr (.same _)⟩) (.swap _ _ _)

theorem exact_intFirst : intFirst.Exact := by
  simp [intFirst, exact_object, exact_bool, exact_integer (by decide : Fits 1)]

theorem exact_boolFirst : boolFirst.Exact := by
  simp [boolFirst, exact_object, exact_bool, exact_integer (by decide : Fits 1)]

/-- **The first kind is taken**: of an expression with two kinds one is dropped without a word, and
another one if the entries are in another order. -/
theorem kinds_in_order :
    Grammar.Value (around intFirst).toText.toList (.ofJson (around intFirst)) ∧
      Grammar.Value (around boolFirst).toText.toList (.ofJson (around boolFirst)) ∧
      (Draft.ofJson (around intFirst)).Reordered (.ofJson (around boolFirst)) ∧
      (Draft.ofJson (around intFirst)).distinctKeys = true ∧
      unambiguous .program (.ofJson (around intFirst)) = false ∧
      parse (around intFirst).toText 1000 = .ok (withBody ⟨none, .int 1⟩) ∧
      parse (around boolFirst).toText 1000 = .ok (withBody ⟨none, .bool true⟩) ∧
      withBody ⟨none, .int 1⟩ ≠ withBody ⟨none, .bool true⟩ := by
  have wellFormed := Json.wellFormed_toText (exact_around exact_intFirst)
  have wellFormed' := Json.wellFormed_toText (exact_around exact_boolFirst)
  refine ⟨Json.wellFormed_iff.mp wellFormed, Json.wellFormed_iff.mp wellFormed',
    reordered_around reordered_boolFirst, by decide, by decide,
    parse_eq_ok_iff.mpr ⟨?_, _, wellFormed, rfl⟩, parse_eq_ok_iff.mpr ⟨?_, _, wellFormed', rfl⟩,
    nofun⟩
  · rw [wellFormed.nestingDepth]
    decide
  · rw [wellFormed'.nestingDepth]
    decide

end Program

end Source

end SelfTyped
