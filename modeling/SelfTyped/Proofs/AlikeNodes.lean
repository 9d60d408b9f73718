/-
SelfTyped.Proofs.AlikeNodes — reading nodes that are alike.

A record looks its fields up by their keys, so the order in which they are
written does not matter as long as no key is used twice.  Expressions are read
differently: of the keys of an expression the first that names a kind decides,
and all others that do are passed over.  So order does not matter to an
expression that names its kind once.

Two nodes at a place are alike if they differ in the order of entries only, and
a reader `Respects` this if what it reads from one node it reads from the
other.  There is one lemma for each way to read, and records need no more than
that their fields stand where the table of places says (`Aligned`).  What is
asked of the relation is that nodes show it (`Mirrors`): complete values and
drafts both do, and expressions are read from both.
-/
import SelfTyped.Proofs.Reorderings

namespace SelfTyped

namespace Source

open Json (Draft)

variable {α β δ : Type}

section Nodes

/-! ## Nodes that are alike -/

/-- Two drafts at a place that differ in the order of entries only, where no key is used twice and
no expression leaves a choice of kinds. -/
structure Alike (place : Place) (x y : Draft) : Prop where
  reordered : x.Reordered y
  distinct : x.distinctKeys = true
  clear : unambiguous place x = true

/-- Two complete values at a place whose drafts are alike. -/
def AlikeValues (place : Place) (j j' : Json) : Prop :=
  Alike place (.ofJson j) (.ofJson j')

variable (R : Place → δ → δ → Prop) (place : Place)

/-- Items that are alike one by one. -/
structure SameItems (items items' : List δ) : Prop where
  length : items.length = items'.length
  each {i : Nat} {x y : δ} : items[i]? = some x → items'[i]? = some y → R (place.item i) x y

/-- Entries that are alike key by key. -/
structure SameEntries (cells cells' : List (String × δ)) : Prop where
  forth {key : String} {x : δ} : (key, x) ∈ cells → ∃ y, (key, y) ∈ cells' ∧ R (place.entry key) x y
  back {key : String} {y : δ} : (key, y) ∈ cells' → ∃ x, (key, x) ∈ cells ∧ R (place.entry key) x y
  distinct : (cells'.map Prod.fst).Nodup
  kinds : place = .expr → ∀ cell ∈ cells, ∀ cell' ∈ cells,
    (Kind.ofKey? cell.1).isSome = true → (Kind.ofKey? cell'.1).isSome = true → cell.1 = cell'.1

/-- Shapes that are alike.  Nothing is asked of shapes with faults. -/
inductive SameShape : Except Fault (Shape δ) → Except Fault (Shape δ) → Prop
  | fault (fault fault' : Fault) : SameShape (.error fault) (.error fault')
  | scalar (found : Found) : SameShape (.ok (.scalar found)) (.ok (.scalar found))
  | sequence {parts parts' : List (Except Fault δ)}
    (intact : ∀ items, parts = items.map .ok →
      ∃ items', parts' = items'.map .ok ∧ SameItems R place items items') :
    SameShape (.ok (.sequence parts)) (.ok (.sequence parts'))
  | mapping {entries entries' : List (Except Fault (String × δ))}
    (intact : ∀ cells, entries = cells.map .ok →
      ∃ cells', entries' = cells'.map .ok ∧ SameEntries R place cells cells') :
    SameShape (.ok (.mapping entries)) (.ok (.mapping entries'))

variable {R place}

/-- A relation of nodes that nodes show in all they show. -/
structure Mirrors [Node δ] (R : Place → δ → δ → Prop) : Prop where
  shape {place : Place} {x y : δ} : R place x y → SameShape R place (Node.shape x) (Node.shape y)
  skip {place : Place} {x y : δ} : R place x y → Node.skip x = .ok () → Node.skip y = .ok ()
  buffer {place : Place} {x y : δ} {j : Json} : R place x y → Node.buffer x = .ok j →
    ∃ j', Node.buffer y = .ok j' ∧ AlikeValues place j j'

/-- What is read from a node is read from every node that is alike. -/
def Respects (R : Place → δ → δ → Prop) (place : Place) (read : δ → Except Fault α) : Prop :=
  ∀ x y a, R place x y → read x = .ok a → read y = .ok a

theorem Respects.map {read : δ → Except Fault α} (respects : Respects R place read) (f : α → β) :
    Respects R place fun node => f <$> read node := by
  intro x y b alike is
  obtain ⟨a, reads, rfl⟩ := map_eq_ok.mp is
  exact map_eq_ok.mpr ⟨a, respects x y a alike reads, rfl⟩

/-! ## Fields -/

/-- The fields of a record stand where the table of places says, and are read there. -/
def Aligned (R : Place → δ → δ → Prop) (place : Place) (fields : List (Field δ)) : Prop :=
  List.Forall₂ (fun field cell => field.key = cell.1 ∧ Respects R cell.2 field.read)
    fields place.fields

variable {fields : List (Field δ)} {key : String}

theorem Aligned.find (aligned : Aligned R place fields) {field : Field δ}
    (found : fields.find? (fun field => field.key == key) = some field) :
    Respects R (place.entry key) field.read := by
  rw [Place.entry]
  unfold Aligned at aligned
  generalize place.fields = cells at aligned
  induction aligned with
  | nil => cases found
  | @cons first cell fields cells here _ ih =>
    obtain ⟨named, respects⟩ := here
    rw [List.find?_cons] at found
    rw [List.lookup_cons]
    split at found
    · next same =>
      cases found
      have same' : (key == cell.1) = true := by rw [← named, beq_iff_eq, ← beq_iff_eq.mp same]
      rw [same']
      exact respects
    · next other =>
      have other' : (key == cell.1) = false := by
        rw [beq_eq_false_iff_ne] at other ⊢
        exact fun same => other (named.trans same.symm)
      rw [other']
      exact ih found

theorem Place.item_of_lt {i : Nat} (h : i < place.fields.length) :
    place.item i = place.fields[i].2 := by
  have found := List.getElem?_eq_getElem h
  cases place with
  | list => exact absurd h (Nat.not_lt_zero i)
  | _ => exact congrArg (fun cell => (cell.map Prod.snd).getD .other) found

theorem Aligned.item (aligned : Aligned R place fields) {i : Nat} {field : Field δ}
    (is : fields[i]? = some field) : Respects R (place.item i) field.read := by
  obtain ⟨length, each⟩ := List.forall₂_iff_get.mp aligned
  obtain ⟨h, rfl⟩ := List.getElem?_eq_some_iff.mp is
  have h' : i < place.fields.length := length ▸ h
  rw [Place.item_of_lt h']
  exact (each i h h').2

/-- What is read of two records that agree. -/
structure Agrees (filled filled' : Filled) : Prop where
  get? (key : String) : filled.get? key = filled'.get? key
  missing : filled.missing = filled'.missing

theorem Agrees.require {filled filled' : Filled} (agrees : Agrees filled filled')
    (pick : Value → Option α) (key : String) :
    filled.require pick key = filled'.require pick key := by
  rw [Filled.require, Filled.require, agrees.get?, agrees.missing]

theorem Agrees.optional {filled filled' : Filled} (agrees : Agrees filled filled')
    (pick : Value → Option α) (key : String) :
    filled.optional pick key = filled'.optional pick key := by
  rw [Filled.optional, Filled.optional, agrees.get?]

/-- Where no key is used twice, what is found under a key is what stands there. -/
theorem lookup_eq_some_iff_mem {values : List (String × β)}
    (distinct : (values.map Prod.fst).Nodup) {value : β} :
    values.lookup key = some value ↔ (key, value) ∈ values := by
  rw [List.lookup_eq_some_iff]
  constructor
  · rintro ⟨before, after, rfl, -⟩
    exact List.mem_append_right _ List.mem_cons_self
  · intro mem
    obtain ⟨before, after, rfl⟩ := List.append_of_mem mem
    refine ⟨before, after, rfl, fun entry hentry => ?_⟩
    rw [List.map_append, List.map_cons, List.nodup_middle, List.nodup_cons] at distinct
    rw [bne_iff_ne]
    intro same
    exact distinct.1 (List.mem_append_left _ (List.mem_map.mpr ⟨entry, hentry, same.symm⟩))

theorem Aligned.yields (aligned : Aligned R place fields) {x y : δ} {value : Value}
    (alike : R (place.entry key) x y) (yields : Yields fields key x value) :
    Yields fields key y value := by
  obtain ⟨field, found, reads⟩ := yields
  exact ⟨field, found, aligned.find found x y value alike reads⟩

variable [Node δ] (mirrors : Mirrors R)

include mirrors

section Shapes

variable {x y : δ} (alike : R place x y)

include alike

theorem mirrors_shape {shape : Shape δ} (shown : Node.shape x = .ok shape) :
    ∃ shape', Node.shape y = .ok shape' ∧ SameShape R place (.ok shape) (.ok shape') := by
  have same := mirrors.shape alike
  rw [shown] at same
  cases shown' : Node.shape y with
  | error fault =>
    rw [shown'] at same
    cases same
  | ok shape' => exact ⟨shape', rfl, shown' ▸ same⟩

theorem mirrors_scalar {found : Found} (shown : Node.shape x = .ok (.scalar found)) :
    Node.shape y = .ok (.scalar found) := by
  obtain ⟨shape', shown', same⟩ := mirrors_shape mirrors alike shown
  cases same
  exact shown'

theorem mirrors_sequence {items : List δ}
    (shown : Node.shape x = .ok (.sequence (items.map .ok))) :
    ∃ items' : List δ, Node.shape y = .ok (.sequence (items'.map .ok)) ∧
      SameItems R place items items' := by
  obtain ⟨shape', shown', same⟩ := mirrors_shape mirrors alike shown
  cases same with
  | sequence intact =>
    obtain ⟨items', rfl, same⟩ := intact items rfl
    exact ⟨items', shown', same⟩

theorem mirrors_mapping {cells : List (String × δ)}
    (shown : Node.shape x = .ok (.mapping (cells.map .ok))) :
    ∃ cells' : List (String × δ), Node.shape y = .ok (.mapping (cells'.map .ok)) ∧
      SameEntries R place cells cells' := by
  obtain ⟨shape', shown', same⟩ := mirrors_shape mirrors alike shown
  cases same with
  | mapping intact =>
    obtain ⟨cells', rfl, same⟩ := intact cells rfl
    exact ⟨cells', shown', same⟩

end Shapes

/-! ## Values -/

/-- A reader that takes no value with parts looks at the shape only. -/
theorem respects_scalar {next : Shape δ → Except Fault α}
    (sequence : ∀ parts a, next (.sequence parts) ≠ .ok a)
    (mapping : ∀ entries a, next (.mapping entries) ≠ .ok a) :
    Respects R place fun node => Node.shape node >>= next := by
  intro x y a alike is
  obtain ⟨shape, shown, is⟩ := bind_eq_ok.mp is
  cases shape with
  | scalar found => exact bind_eq_ok.mpr ⟨_, mirrors_scalar mirrors alike shown, is⟩
  | sequence parts => exact absurd is (sequence parts a)
  | mapping entries => exact absurd is (mapping entries a)

theorem respects_text : Respects R place (readText : δ → Except Fault String) :=
  respects_scalar mirrors (fun _ _ => nofun) fun _ _ => nofun

theorem respects_bool : Respects R place (readBool : δ → Except Fault Bool) :=
  respects_scalar mirrors (fun _ _ => nofun) fun _ _ => nofun

theorem respects_literal : Respects R place (readLiteral : δ → Except Fault Int) :=
  respects_scalar mirrors (fun _ _ => nofun) fun _ _ => nofun

theorem respects_line : Respects R place (readLine : δ → Except Fault Nat) :=
  respects_scalar mirrors (fun _ _ => nofun) fun _ _ => nofun

theorem respects_optional {read : δ → Except Fault α} (respects : Respects R place read) :
    Respects R place (readOptional read) := by
  intro x y a alike is
  rcases readOptional_eq_ok_iff.mp is with ⟨shown, rfl⟩ | ⟨⟨shape, shown, notNull⟩, a, reads, rfl⟩
  · exact readOptional_eq_ok_iff.mpr (.inl ⟨mirrors_scalar mirrors alike shown, rfl⟩)
  · obtain ⟨shape', shown', same⟩ := mirrors_shape mirrors alike shown
    have notNull' : shape' ≠ .scalar .null := by
      rintro rfl
      cases same
      exact notNull rfl
    exact readOptional_eq_ok_iff.mpr
      (.inr ⟨⟨shape', shown', notNull'⟩, a, respects x y a alike reads, rfl⟩)

theorem respects_items {each : Place} {read : δ → Except Fault α}
    (respects : Respects R each read) : Respects R (.list each) (readItems read) := by
  intro x y values alike is
  obtain ⟨items, shown, reads⟩ := readItems_eq_ok_iff.mp is
  obtain ⟨items', shown', same⟩ := mirrors_sequence mirrors alike shown
  refine readItems_eq_ok_iff.mpr ⟨items', shown', ?_⟩
  rw [List.forall₂_iff_get] at reads ⊢
  refine ⟨same.length ▸ reads.1, fun i h h' => ?_⟩
  have h₀ : i < items.length := same.length ▸ h
  have alike' : R each (items.get ⟨i, h₀⟩) (items'.get ⟨i, h⟩) :=
    same.each (List.getElem?_eq_getElem h₀) (List.getElem?_eq_getElem h)
  exact respects _ _ _ alike' (reads.2 i h₀ h')

theorem respects_textField {key : String} : Respects R place (Field.text key : Field δ).read :=
  (respects_text mirrors).map _

theorem respects_textOrNull {key : String} :
    Respects R place (Field.textOrNull key : Field δ).read :=
  (respects_optional mirrors (respects_text mirrors)).map _

theorem respects_lineField {key : String} :
    Respects R place (Field.lineOrNull key : Field δ).read :=
  (respects_optional mirrors (respects_line mirrors)).map _

/-! ## Records -/

variable {fields : List (Field δ)} {key : String} {x y : δ}

section Fill

variable (aligned : Aligned R place fields) {value : Value}

include aligned

theorem Aligned.passes (alike : R (place.entry key) x y) (passes : Passes fields key x) :
    Passes fields key y := by
  rcases passes with ⟨unknown, skipped⟩ | ⟨value, yields⟩
  · exact .inl ⟨unknown, mirrors.skip alike skipped⟩
  · exact .inr ⟨value, aligned.yields alike yields⟩

omit mirrors in
/-- Nothing is read of the other node that is not read of the one. -/
theorem Aligned.yields_back (alike : R (place.entry key) x y) (passes : Passes fields key x)
    (yields : Yields fields key y value) : Yields fields key x value := by
  obtain ⟨field, found, reads⟩ := yields
  rcases passes with ⟨unknown, -⟩ | ⟨value', field', found', reads'⟩
  · rw [unknown] at found
    cases found
  · rw [found', Option.some.injEq] at found
    subst found
    have same := aligned.find found' x y value' alike reads'
    rw [reads, Except.ok.injEq] at same
    exact ⟨field', found', same ▸ reads'⟩

end Fill

omit mirrors [Node δ] in
theorem Aligned.sequence {items items' : List δ} {values : List (String × Value)}
    (aligned : Aligned R place fields) (same : SameItems R place items items')
    (each : List.Forall₂ (fun pair value => pair.1.key = value.1 ∧ pair.1.read pair.2 = .ok value.2)
      (fields.zip items) values) :
    List.Forall₂ (fun pair value => pair.1.key = value.1 ∧ pair.1.read pair.2 = .ok value.2)
      (fields.zip items') values := by
  rw [List.forall₂_iff_get] at each ⊢
  obtain ⟨length, each⟩ := each
  rw [List.length_zip, same.length, ← List.length_zip] at length
  refine ⟨length, fun i h h' => ?_⟩
  have bound := h
  rw [List.length_zip, Nat.lt_min] at bound
  have hitem : i < items.length := same.length ▸ bound.2
  have h₀ : i < (fields.zip items).length := by
    rw [List.length_zip, Nat.lt_min]
    exact ⟨bound.1, hitem⟩
  have here := each i h₀ h'
  simp only [List.get_eq_getElem, List.getElem_zip] at here ⊢
  have alike := same.each (List.getElem?_eq_getElem hitem) (List.getElem?_eq_getElem bound.2)
  exact ⟨here.1, aligned.item (List.getElem?_eq_getElem bound.1) _ _ _ alike here.2⟩

/-- **A record is read alike, whatever the order of its entries.** -/
theorem fill_agrees {record : Record δ} (aligned : Aligned R place record.fields)
    (alike : R place x y) {expected : Expected} {filled : Filled}
    (read : record.fill expected x = .ok filled) :
    ∃ filled', record.fill expected y = .ok filled' ∧ Agrees filled filled' := by
  obtain ⟨shape, shown, fills⟩ := fill_eq_ok read
  cases fills with
  | @mapping cells values passes distinct mem_iff =>
    obtain ⟨cells', shown', same⟩ := mirrors_mapping mirrors alike shown
    have passes' : ∀ cell ∈ cells', Passes record.fields cell.1 cell.2 := by
      rintro ⟨key, y⟩ mem
      obtain ⟨x, hx, alike⟩ := same.back mem
      exact aligned.passes mirrors alike (passes _ hx)
    obtain ⟨values', filled'⟩ := fillMapping_of_passes passes' same.distinct [] (by simp)
    obtain ⟨cells'', is, -, distinct', mem_iff'⟩ := fillMapping_eq_ok filled'
    obtain rfl : cells' = cells'' := List.map_injective_iff.mpr (fun _ _ => Except.ok.inj) is
    refine ⟨⟨values', fun key => .mismatch (.missingField key)⟩,
      bind_eq_ok.mpr ⟨_, shown', bind_eq_ok.mpr ⟨values', filled', rfl⟩⟩, fun key => ?_, rfl⟩
    refine Option.ext fun value => ?_
    rw [Filled.get?, Filled.get?, lookup_eq_some_iff_mem distinct,
      lookup_eq_some_iff_mem (distinct' List.nodup_nil), mem_iff, mem_iff',
      or_iff_right List.not_mem_nil]
    constructor
    · rintro ⟨x, hx, yields⟩
      obtain ⟨y, hy, alike⟩ := same.forth hx
      exact ⟨y, hy, aligned.yields alike yields⟩
    · rintro ⟨y, hy, yields⟩
      obtain ⟨x, hx, alike⟩ := same.back hy
      exact ⟨x, hx, aligned.yields_back alike (passes _ hx) yields⟩
  | @sequence items values short each =>
    obtain ⟨items', shown', same⟩ := mirrors_sequence mirrors alike shown
    refine ⟨⟨values, record.endsBefore⟩, ?_, fun _ => rfl, rfl⟩
    have each' := aligned.sequence same each
    exact bind_eq_ok.mpr ⟨_, shown', bind_eq_ok.mpr ⟨values,
      fillSequence_eq_ok_iff.mpr ⟨items', rfl, same.length ▸ short, each'⟩, rfl⟩⟩

theorem respects_record {record : Record δ} (aligned : Aligned R place record.fields)
    {expected : Expected} {next : Filled → Except Fault α}
    (agree : ∀ filled filled', Agrees filled filled' → next filled = next filled') :
    Respects R place fun node => record.fill expected node >>= next := by
  intro x y a alike is
  obtain ⟨filled, read, is⟩ := bind_eq_ok.mp is
  obtain ⟨filled', read', agrees⟩ := fill_agrees mirrors aligned alike read
  exact bind_eq_ok.mpr ⟨filled', read', agree filled filled' agrees ▸ is⟩

end Nodes

/-! ## Forms -/

section Forms

variable {R : Place → Json → Json → Prop} (mirrors : Mirrors R) {inner : Json → Except Fault Expr}
  (respects : Respects R .expr inner)

include mirrors respects

theorem respects_branch : Respects R .branch (readBranch inner) := by
  have aligned : Aligned R .branch (branchRecord inner).fields :=
    .cons ⟨rfl, respects_textField mirrors⟩ <| .cons ⟨rfl, respects_textField mirrors⟩ <|
      .cons ⟨rfl, respects.map _⟩ <| .cons ⟨rfl, respects_lineField mirrors⟩ .nil
  exact respects_record mirrors aligned fun _ _ agrees => by
    simp only [agrees.require, agrees.optional]

theorem respects_assign : Respects R (.form .assign) (readAssign inner) := by
  have aligned : Aligned R (.form .assign) [.text "name", .expr inner "value"] :=
    .cons ⟨rfl, respects_textField mirrors⟩ <| .cons ⟨rfl, respects.map _⟩ .nil
  exact respects_record mirrors aligned fun _ _ agrees => by simp only [agrees.require]

theorem respects_dispatch : Respects R (.form .dispatch) (readDispatch inner) := by
  have aligned : Aligned R (.form .dispatch)
      [.exprOrNull inner "receiver", .text "method", .items .exprs inner "args"] :=
    .cons ⟨rfl, (respects_optional mirrors respects).map _⟩ <|
      .cons ⟨rfl, respects_textField mirrors⟩ <|
        .cons ⟨rfl, (respects_items mirrors respects).map _⟩ .nil
  exact respects_record mirrors aligned fun _ _ agrees => by
    simp only [agrees.require, agrees.optional]

theorem respects_staticDispatch :
    Respects R (.form .staticDispatch) (readStaticDispatch inner) := by
  have aligned : Aligned R (.form .staticDispatch)
      [.exprOrNull inner "receiver", .text "type", .text "method", .items .exprs inner "args"] :=
    .cons ⟨rfl, (respects_optional mirrors respects).map _⟩ <|
      .cons ⟨rfl, respects_textField mirrors⟩ <| .cons ⟨rfl, respects_textField mirrors⟩ <|
        .cons ⟨rfl, (respects_items mirrors respects).map _⟩ .nil
  exact respects_record mirrors aligned fun _ _ agrees => by
    simp only [agrees.require, agrees.optional]

theorem respects_cond : Respects R (.form .cond) (readCond inner) := by
  have aligned : Aligned R (.form .cond)
      [.expr inner "pred", .expr inner "then", .expr inner "else"] :=
    .cons ⟨rfl, respects.map _⟩ <| .cons ⟨rfl, respects.map _⟩ <|
      .cons ⟨rfl, respects.map _⟩ .nil
  exact respects_record mirrors aligned fun _ _ agrees => by simp only [agrees.require]

theorem respects_loop : Respects R (.form .loop) (readLoop inner) := by
  have aligned : Aligned R (.form .loop) [.expr inner "pred", .expr inner "body"] :=
    .cons ⟨rfl, respects.map _⟩ <| .cons ⟨rfl, respects.map _⟩ .nil
  exact respects_record mirrors aligned fun _ _ agrees => by simp only [agrees.require]

theorem respects_case : Respects R (.form .case) (readCase inner) := by
  have branches := respects_branch mirrors respects
  have aligned : Aligned R (.form .case)
      [.expr inner "expr", .items .branches (readBranch inner) "branches"] :=
    .cons ⟨rfl, respects.map _⟩ <| .cons ⟨rfl, (respects_items mirrors branches).map _⟩ .nil
  exact respects_record mirrors aligned fun _ _ agrees => by simp only [agrees.require]

theorem respects_let : Respects R (.form .letIn) (readLet inner) := by
  have aligned : Aligned R (.form .letIn)
      [.text "name", .text "type", .exprOrNull inner "init", .expr inner "body"] :=
    .cons ⟨rfl, respects_textField mirrors⟩ <| .cons ⟨rfl, respects_textField mirrors⟩ <|
      .cons ⟨rfl, (respects_optional mirrors respects).map _⟩ <|
        .cons ⟨rfl, respects.map _⟩ .nil
  exact respects_record mirrors aligned fun _ _ agrees => by
    simp only [agrees.require, agrees.optional]

/-- The operands of a binary operator are a record that is not written as an object. -/
theorem respects_binary (op : Operator) :
    Respects R (.form (.binary op)) (readBinary inner op) := by
  have aligned : Aligned R (.form (.binary op)) (operandRecord inner op).fields :=
    .cons ⟨rfl, respects.map _⟩ <| .cons ⟨rfl, respects.map _⟩ .nil
  intro x y form alike is
  obtain ⟨shape, shown, is⟩ := bind_eq_ok.mp is
  obtain ⟨shape', shown', same⟩ := mirrors_shape mirrors alike shown
  cases same with
  | scalar | mapping => cases is
  | @sequence parts parts' =>
    obtain ⟨filled, read, is⟩ := bind_eq_ok.mp is
    have read : (operandRecord inner op).fill .tupleVariant x = .ok filled :=
      bind_eq_ok.mpr ⟨_, shown, read⟩
    obtain ⟨filled', read', agrees⟩ := fill_agrees mirrors aligned alike read
    obtain ⟨shape'', shown'', read'⟩ := bind_eq_ok.mp read'
    rw [shown', Except.ok.injEq] at shown''
    subst shown''
    refine bind_eq_ok.mpr ⟨_, shown', bind_eq_ok.mpr ⟨filled', read', ?_⟩⟩
    simpa only [agrees.require] using is

omit respects in
theorem respects_noExpr {place : Place} : Respects R place readNoExpr := by
  intro x y form alike is
  obtain ⟨shape, shown, is⟩ := bind_eq_ok.mp is
  split at is
  · exact bind_eq_ok.mpr ⟨_, mirrors_scalar mirrors alike shown, is⟩
  · have shown : Node.shape x = .ok (.mapping (([] : List (String × Json)).map .ok)) := shown
    obtain ⟨cells', shown', same⟩ := mirrors_mapping mirrors alike shown
    have empty : cells' = [] := by
      refine List.eq_nil_iff_forall_not_mem.mpr fun cell mem => ?_
      obtain ⟨_, absent, _⟩ := same.back mem
      exact List.not_mem_nil absent
    subst empty
    exact bind_eq_ok.mpr ⟨_, shown', is⟩
  · cases is

/-- The value of the key that names a kind is read alike. -/
theorem respects_form (kind : Kind) : Respects R (.ofKind kind) (readForm inner kind) := by
  cases kind with
  | int => exact (respects_literal mirrors).map _
  | bool => exact (respects_bool mirrors).map _
  | string | object | new => exact (respects_text mirrors).map _
  | negate | complement | isVoid => exact respects.map _
  | block => exact (respects_items mirrors respects).map _
  | assign => exact respects_assign mirrors respects
  | dispatch => exact respects_dispatch mirrors respects
  | staticDispatch => exact respects_staticDispatch mirrors respects
  | cond => exact respects_cond mirrors respects
  | loop => exact respects_loop mirrors respects
  | case => exact respects_case mirrors respects
  | letIn => exact respects_let mirrors respects
  | binary op => exact respects_binary mirrors respects op
  | noExpr => exact respects_noExpr mirrors

end Forms

/-! ## Expressions -/

section Entries

variable {R : Place → δ → δ → Prop} {cells cells' : List (String × δ)}

theorem Place.entry_kind {key : String} {kind : Kind} (named : Kind.ofKey? key = some kind) :
    Place.entry .expr key = .ofKind kind := by
  have table : ∀ kinds : List Kind,
      (kinds.map fun kind => (kind.key, Place.ofKind kind)).lookup key =
        (kinds.find? fun kind => kind.key == key).map Place.ofKind := by
    intro kinds
    induction kinds with
    | nil => rfl
    | cons first kinds ih =>
      rw [List.map_cons, List.lookup_cons, List.find?_cons, BEq.comm, ih]
      cases first.key == key <;> rfl
  rw [Place.entry, Place.fields, table, show Kind.all.find? _ = _ from named]
  rfl

/-- Entries that differ in their keys, and do not differ in their keys. -/
theorem eq_singleton_of_keys {cells : List (String × β)} (distinct : (cells.map Prod.fst).Nodup)
    {key : String} (keys : ∀ cell ∈ cells, cell.1 = key) {cell : String × β}
    (mem : cell ∈ cells) : cells = [cell] := by
  have replicated : cells.map Prod.fst = List.replicate cells.length key := by
    refine List.eq_replicate_iff.mpr ⟨List.length_map .., fun key' mem => ?_⟩
    obtain ⟨cell, hcell, rfl⟩ := List.mem_map.mp mem
    exact keys cell hcell
  have single : cells.length ≤ 1 := List.nodup_replicate.mp (replicated ▸ distinct)
  obtain _ | ⟨first, _ | ⟨second, rest⟩⟩ := cells
  · exact absurd mem List.not_mem_nil
  · rw [List.mem_singleton.mp mem]
  · rw [List.length_cons, List.length_cons] at single
    omega

theorem filter_isLine (distinct : (cells.map Prod.fst).Nodup) {x : δ} (mem : ("line", x) ∈ cells) :
    cells.filter isLine = [("line", x)] :=
  eq_singleton_of_keys (distinct.sublist (List.filter_sublist.map _))
    (fun _ mem => beq_iff_eq.mp (List.mem_filter.mp mem).2) (List.mem_filter.mpr ⟨mem, rfl⟩)

theorem findSome?_eq_of_unique {f : α → Option β} {as : List α} {a : α} {b : β} (mem : a ∈ as)
    (is : f a = some b) (only : ∀ a ∈ as, ∀ b', f a = some b' → b' = b) :
    as.findSome? f = some b := by
  cases found : as.findSome? f with
  | none => exact absurd ((List.findSome?_eq_none_iff.mp found a mem).symm.trans is) nofun
  | some b' =>
    obtain ⟨a', mem', is'⟩ := List.exists_of_findSome?_eq_some found
    rw [only a' mem' b' is']

variable [Node δ]

theorem exists_buffered {others : List (String × Json)}
    (buffers : List.Forall₂ Buffers cells others) {key : String} {x : δ} (mem : (key, x) ∈ cells) :
    ∃ value, (key, value) ∈ others ∧ Node.buffer x = .ok value := by
  obtain ⟨⟨_, value⟩, hentry, rfl, buffered⟩ := exists_mem_of_forall₂ buffers.flip mem
  exact ⟨value, hentry, buffered⟩

theorem exists_cell {others : List (String × Json)} (buffers : List.Forall₂ Buffers cells others)
    {key : String} {value : Json} (mem : (key, value) ∈ others) :
    ∃ x, (key, x) ∈ cells ∧ Node.buffer x = .ok value := by
  obtain ⟨⟨_, x⟩, hx, rfl, buffered⟩ := exists_mem_of_forall₂ buffers mem
  exact ⟨x, hx, buffered⟩

variable (mirrors : Mirrors R) (same : SameEntries R .expr cells cells')

include mirrors same

theorem sameEntries_line {line : Option Nat} (read : LineRead (cells.filter isLine) none line) :
    LineRead (cells'.filter isLine) none line := by
  obtain ⟨absent, rfl⟩ | ⟨-, ⟨key, x⟩, single, reads⟩ := read
  · refine .inl ⟨List.filter_eq_nil_iff.mpr ?_, rfl⟩
    rintro ⟨key, y⟩ hcell named
    obtain ⟨x, hx, -⟩ := same.back hcell
    exact List.filter_eq_nil_iff.mp absent (key, x) hx named
  · obtain ⟨hx, named⟩ := List.mem_filter.mp (single ▸ List.mem_singleton_self (key, x))
    obtain rfl : key = "line" := beq_iff_eq.mp named
    obtain ⟨y, hy, alike⟩ := same.forth hx
    have reads' := respects_optional mirrors (respects_line mirrors) x y line alike reads
    exact .inr ⟨rfl, ("line", y), filter_isLine same.distinct hy, reads'⟩

theorem sameEntries_others {others : List (String × Json)}
    (buffers : List.Forall₂ Buffers (cells.filter (!isLine ·)) others) :
    ∃ others', List.Forall₂ Buffers (cells'.filter (!isLine ·)) others' := by
  refine exists_forall₂ ?_
  rintro ⟨key, y⟩ mem
  obtain ⟨hy, notLine⟩ := List.mem_filter.mp mem
  obtain ⟨x, hx, alike⟩ := same.back hy
  obtain ⟨value, -, buffered⟩ := exists_buffered buffers (List.mem_filter.mpr ⟨hx, notLine⟩)
  obtain ⟨value', buffered', -⟩ := mirrors.buffer alike buffered
  exact ⟨(key, value'), rfl, buffered'⟩

/-- The kind of an expression is found under the same key. -/
theorem sameEntries_kind {others others' : List (String × Json)} {kind : Kind} {value : Json}
    (buffers : List.Forall₂ Buffers (cells.filter (!isLine ·)) others)
    (buffers' : List.Forall₂ Buffers (cells'.filter (!isLine ·)) others')
    (found : kindEntry? others = some (kind, value)) :
    ∃ value', kindEntry? others' = some (kind, value') ∧
      AlikeValues (.ofKind kind) value value' := by
  obtain ⟨key, mem, named⟩ := mem_of_kindEntry? found
  obtain ⟨x, hx, buffered⟩ := exists_cell buffers mem
  obtain ⟨hx, notLine⟩ := List.mem_filter.mp hx
  obtain ⟨y, hy, alike⟩ := same.forth hx
  obtain ⟨value', hvalue, buffered'⟩ :=
    exists_buffered buffers' (List.mem_filter.mpr ⟨hy, notLine⟩)
  have alike' : AlikeValues (.ofKind kind) value value' := by
    obtain ⟨value'', buffered'', alike'⟩ := mirrors.buffer alike buffered
    rw [buffered', Except.ok.injEq] at buffered''
    rwa [Place.entry_kind named, ← buffered''] at alike'
  refine ⟨value', findSome?_eq_of_unique hvalue ?_ ?_, alike'⟩
  · exact Option.map_eq_some_iff.mpr ⟨kind, named, rfl⟩
  -- Another entry that names a kind has the same key, so it is the same entry.
  · rintro ⟨key', other⟩ hother _ is
    obtain ⟨kind', named', rfl⟩ := Option.map_eq_some_iff.mp is
    obtain ⟨y', hy', buffered''⟩ := exists_cell buffers' hother
    have hy' := (List.mem_filter.mp hy').1
    obtain ⟨x', hx', -⟩ := same.back hy'
    obtain rfl : key' = key :=
      same.kinds rfl _ hx' _ hx (Option.isSome_of_eq_some named') (Option.isSome_of_eq_some named)
    obtain ⟨⟩ := List.inj_on_of_nodup_map same.distinct hy hy' rfl
    rw [named, Option.some.injEq] at named'
    rw [buffered', Except.ok.injEq] at buffered''
    rw [named', buffered'']

end Entries

/-- **An expression is read alike**, as it names its kind once. -/
theorem respects_exprWith [Node δ] {R : Place → δ → δ → Prop} (mirrors : Mirrors R)
    (mirrorsValues : Mirrors AlikeValues) {inner : Json → Except Fault Expr}
    (respects : Respects AlikeValues .expr inner) :
    Respects R .expr (readExprWith inner) := by
  intro x y e alike is
  obtain ⟨cells, others, kind, value, shown, line, buffers, found, reads⟩ :=
    readExprWith_eq_ok_iff.mp is
  obtain ⟨cells', shown', same⟩ := mirrors_mapping mirrors alike shown
  obtain ⟨others', buffers'⟩ := sameEntries_others mirrors same buffers
  obtain ⟨value', found', alike'⟩ := sameEntries_kind mirrors same buffers buffers' found
  exact readExprWith_eq_ok_iff.mpr ⟨cells', others', kind, value', shown',
    sameEntries_line mirrors same line, buffers', found',
    respects_form mirrorsValues respects kind _ _ _ alike' reads⟩

end Source

end SelfTyped
