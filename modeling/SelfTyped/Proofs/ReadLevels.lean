/-
SelfTyped.Proofs.ReadLevels — every level of an expression has a bracket.

An expression is read from an object, and the expressions inside it from parts
of that object.  So an expression has at most as many levels as the value that
it is read from has brackets around one another, and what stands around an
expression is to be taken off: a body lies in a method, in a feature, in a
list, in a class, in a list, in the program.

`Bounded` says this of a reader, with the number of brackets that it takes off.
Each way to read has one lemma: a field, a list, a record.  Records add one to
what their fields take off, whether they are written as objects or as arrays
(`WithinLevels.of_fill`), and readers of records need no more than to name
their fields.
-/
import SelfTyped.Proofs.JsonNesting
import SelfTyped.Proofs.ReadParts
import SelfTyped.Proofs.WrittenPrograms

namespace SelfTyped

namespace Json.Draft

variable {bound : Nat}

theorem depthItems_le_iff {items : List Draft} :
    depthItems items ≤ bound ↔ ∀ item ∈ items, item.depth ≤ bound := by
  induction items with
  | nil => simp [depthItems]
  | cons item items ih => rw [depthItems, Nat.max_le, ih, List.forall_mem_cons]

theorem depthEntries_le_iff {entries : List (Option String × Draft)} :
    depthEntries entries ≤ bound ↔ ∀ entry ∈ entries, entry.2.depth ≤ bound := by
  induction entries with
  | nil => simp [depthEntries]
  | cons entry entries ih =>
    obtain ⟨key, value⟩ := entry
    rw [depthEntries, Nat.max_le, ih, List.forall_mem_cons]

end Json.Draft

namespace Source

open Json (Draft)

variable {α β δ : Type}

/-! ## Levels -/

theorem Expr.NestsWithin.mono {e : Expr} {m n : Nat} (nests : e.NestsWithin m) (le : m ≤ n) :
    e.NestsWithin n := by
  induction m generalizing e n with
  | zero =>
    cases n with
    | zero => exact nests
    | succ n =>
      have none : e.form.children = [] := nests
      intro child mem
      rw [none] at mem
      exact absurd mem List.not_mem_nil
  | succ m ih =>
    obtain _ | n := n
    · exact absurd le (Nat.not_succ_le_zero m)
    · exact fun child mem => ih (nests child mem) (Nat.le_of_succ_le_succ le)

theorem Expr.levelsWithin_succ {e : Expr} {n : Nat} :
    e.LevelsWithin (n + 1) ↔ ∀ child ∈ e.form.children, child.LevelsWithin n := by
  cases n with
  | zero => exact List.eq_nil_iff_forall_not_mem
  | succ n => exact Iff.rfl

theorem Expr.LevelsWithin.mono {e : Expr} {m n : Nat} (within : e.LevelsWithin m) (le : m ≤ n) :
    e.LevelsWithin n := by
  obtain _ | m := m
  · exact within.elim
  · obtain _ | n := n
    · exact absurd le (Nat.not_succ_le_zero m)
    · exact NestsWithin.mono within (Nat.le_of_succ_le_succ le)

/-- An expression has at least the levels of those inside it. -/
theorem Expr.Contains.levelsWithin {e inside : Expr} {n : Nat} (contains : e.Contains inside)
    (within : e.LevelsWithin n) : inside.LevelsWithin n := by
  induction contains with
  | self => exact within
  | child _ mem ih =>
    obtain _ | n := n
    · exact within.elim
    · exact (levelsWithin_succ.mp ih _ mem).mono (Nat.le_succ n)

/-! ## Depths of nodes -/

/-- A depth of nodes that counts brackets: parts of a node are less deep than the node, and its
complete value is as deep. -/
structure Counts [Node δ] (depth : δ → Nat) : Prop where
  part {part node : δ} : PartOf part node → depth part < depth node
  buffer {node : δ} {j : Json} : Node.buffer node = .ok j → j.depth = depth node

theorem counts_json : Counts Json.depth where
  part := by
    rintro part node (⟨shape, mem⟩ | ⟨shape, mem⟩)
    · cases node <;> cases shape
      obtain ⟨item, hitem, ⟨⟩⟩ := List.mem_map.mp mem
      exact Json.depth_item_lt hitem
    · cases node <;> cases shape
      obtain ⟨entry, hentry, ⟨⟩⟩ := List.mem_map.mp mem
      exact Nat.lt_succ_of_le (Json.depthEntries_le_iff.mp (Nat.le_refl _) _ hentry)
  buffer is := congrArg Json.depth (Except.ok.inj is).symm

theorem counts_draft : Counts Draft.depth where
  part := by
    rintro part node (⟨shape, mem⟩ | ⟨shape, mem⟩)
    · cases node <;> cases shape
      exact Nat.lt_succ_of_le
        (Draft.depthItems_le_iff.mp (Nat.le_refl _) _ (ok_mem_sequence.mp mem))
    · cases node <;> cases shape
      exact Nat.lt_succ_of_le
        (Draft.depthEntries_le_iff.mp (Nat.le_refl _) _ (ok_mem_mapping.mp mem))
  buffer is := by rw [buffer_eq_ok is, Draft.depth_ofJson]

/-! ## Readers -/

/-- The outermost expressions of a feature. -/
def Feature.roots (feature : Feature) : List Expr :=
  feature.root?.toList

/-- The outermost expressions of a class. -/
def Class.roots (c : Class) : List Expr :=
  c.features.flatMap Feature.roots

/-- The outermost expressions of a program. -/
def Program.roots (p : Program) : List Expr :=
  p.classes.flatMap Class.roots

/-- The outermost expressions in what a field holds. -/
def Value.roots : Value → List Expr
  | .expr e => [e]
  | .exprs es => es
  | .branches bs => bs.map Branch.body
  | .features fs => fs.flatMap Feature.roots
  | .classes cs => cs.flatMap Class.roots
  | .none | .text _ | .line _ | .formals _ => []

/-- The expressions that are read have at most as many levels as the node has brackets, less the
brackets that stand around them. -/
def Bounded (depth : δ → Nat) (around : Nat) (roots : α → List Expr)
    (read : δ → Except Fault α) : Prop :=
  ∀ node a, read node = .ok a → ∀ e ∈ roots a, e.LevelsWithin (depth node - around)

section Bounds

variable {depth : δ → Nat} {around : Nat} {roots : α → List Expr} {roots' : β → List Expr}
  {read : δ → Except Fault α}

theorem Bounded.map (bounded : Bounded depth around roots read) {f : α → β}
    (same : ∀ a, ∀ e ∈ roots' (f a), e ∈ roots a) :
    Bounded depth around roots' fun node => f <$> read node := by
  intro node b is e mem
  obtain ⟨a, reads, rfl⟩ := map_eq_ok.mp is
  exact bounded node a reads e (same a e mem)

/-- Brackets need not be taken off. -/
theorem Bounded.mono {fewer : Nat} (bounded : Bounded depth around roots read)
    (le : fewer ≤ around) : Bounded depth fewer roots read :=
  fun node a is e mem => (bounded node a is e mem).mono (by omega)

/-- What holds no expressions is bounded. -/
theorem bounded_flat {f : α → β} (flat : ∀ a, roots' (f a) = []) :
    Bounded depth around roots' fun node => f <$> read node := by
  intro node b is e mem
  obtain ⟨a, -, rfl⟩ := map_eq_ok.mp is
  rw [flat] at mem
  exact absurd mem List.not_mem_nil

variable [Node δ]

theorem Bounded.optional (bounded : Bounded depth around roots read) :
    Bounded depth around (fun a => a.toList.flatMap roots) (readOptional read) := by
  intro node a is e mem
  rcases readOptional_eq_ok_iff.mp is with ⟨-, rfl⟩ | ⟨-, a, reads, rfl⟩
  · exact absurd mem List.not_mem_nil
  · exact bounded node a reads e (by simpa using mem)

theorem Bounded.items (counts : Counts depth) (bounded : Bounded depth around roots read) :
    Bounded depth (around + 1) (fun as => as.flatMap roots) (readItems read) := by
  intro node as is e mem
  obtain ⟨items, shape, each⟩ := readItems_eq_ok_iff.mp is
  obtain ⟨a, ha, he⟩ := List.mem_flatMap.mp mem
  obtain ⟨item, hitem, reads⟩ := exists_mem_of_forall₂ each ha
  have less := counts.part (.item shape (List.mem_map_of_mem hitem))
  exact (bounded item a reads e he).mono (by omega)

/-! ## Fields -/

theorem bounded_text (key : String) :
    Bounded depth around Value.roots (Field.text key : Field δ).read :=
  bounded_flat fun _ => rfl

theorem bounded_textOrNull (key : String) :
    Bounded depth around Value.roots (Field.textOrNull key : Field δ).read :=
  bounded_flat fun a => by cases a <;> rfl

theorem bounded_line (key : String) :
    Bounded depth around Value.roots (Field.lineOrNull key : Field δ).read :=
  bounded_flat fun a => by cases a <;> rfl

omit [Node δ] in
theorem bounded_expr {read : δ → Except Fault Expr}
    (bounded : Bounded depth around (fun e => [e]) read) (key : String) :
    Bounded depth around Value.roots (Field.expr read key).read :=
  bounded.map fun _ _ mem => mem

theorem bounded_exprOrNull {read : δ → Except Fault Expr}
    (bounded : Bounded depth around (fun e => [e]) read) (key : String) :
    Bounded depth around Value.roots (Field.exprOrNull read key).read :=
  bounded.optional.map fun a _ mem => by
    cases a with
    | none => exact absurd mem List.not_mem_nil
    | some e => exact mem

theorem bounded_items (counts : Counts depth) (bounded : Bounded depth around roots read)
    {wrap : List α → Value} (same : ∀ as, ∀ e ∈ (wrap as).roots, e ∈ as.flatMap roots)
    (key : String) : Bounded depth (around + 1) Value.roots (Field.items wrap read key).read :=
  (bounded.items counts).map same

theorem bounded_exprs (counts : Counts depth) {read : δ → Except Fault Expr}
    (bounded : Bounded depth around (fun e => [e]) read) (key : String) :
    Bounded depth (around + 1) Value.roots (Field.items .exprs read key).read := by
  refine bounded_items counts bounded (fun es e mem => ?_) key
  rw [List.flatMap_singleton']
  exact mem

/-! ## Records -/

/-- The expressions in the fields of a record have at most so many levels. -/
def WithinLevels (levels : Nat) (filled : Filled) : Prop :=
  ∀ key value, filled.get? key = some value → ∀ e ∈ value.roots, e.LevelsWithin levels

namespace WithinLevels

/-- A record is a pair of brackets around its fields. -/
theorem of_fill (counts : Counts depth) {record : Record δ} {expected : Expected} {node : δ}
    {filled : Filled} (read : record.fill expected node = .ok filled)
    (fields : record.fields.Forall fun field => Bounded depth around Value.roots field.read) :
    WithinLevels (depth node - (around + 1)) filled := by
  intro key value found e mem
  obtain ⟨field, hfield, -, part, partOf, reads⟩ := fill_part read found
  have less := counts.part partOf
  have bounded := List.forall_iff_forall_mem.mp fields field hfield part value reads e mem
  exact bounded.mono (by omega)

variable {levels : Nat} {filled : Filled} {key : String}

theorem require {pick : Value → Option α} (within : WithinLevels levels filled)
    (picks : ∀ value a, pick value = some a → ∀ e ∈ roots a, e ∈ value.roots) {a : α}
    (is : filled.require pick key = .ok a) : ∀ e ∈ roots a, e.LevelsWithin levels := by
  intro e mem
  rw [Filled.require] at is
  split at is
  · next picked =>
    obtain ⟨value, found, picked⟩ := Option.bind_eq_some_iff.mp picked
    cases is
    exact within key value found e (picks value a picked e mem)
  · cases is

theorem optional {pick : Value → Option α} (within : WithinLevels levels filled)
    (picks : ∀ value a, pick value = some a → ∀ e ∈ roots a, e ∈ value.roots) :
    ∀ a ∈ filled.optional pick key, ∀ e ∈ roots a, e.LevelsWithin levels := by
  intro a is e mem
  obtain ⟨value, found, picked⟩ := Option.bind_eq_some_iff.mp is
  exact within key value found e (picks value a picked e mem)

theorem picks_expr (value : Value) (e : Expr) (is : value.expr? = some e) :
    ∀ e' ∈ [e], e' ∈ value.roots := by
  cases value <;> cases is
  exact fun _ mem => mem

theorem picks_exprs (value : Value) (es : List Expr) (is : value.exprs? = some es) :
    ∀ e ∈ es.flatMap fun e => [e], e ∈ value.roots := by
  cases value <;> cases is
  rw [List.flatMap_singleton']
  exact fun _ mem => mem

theorem picks_branches (value : Value) (bs : List Branch) (is : value.branches? = some bs) :
    ∀ e ∈ bs.map Branch.body, e ∈ value.roots := by
  cases value <;> cases is
  exact fun _ mem => mem

theorem picks_features (value : Value) (fs : List Feature) (is : value.features? = some fs) :
    ∀ e ∈ fs.flatMap Feature.roots, e ∈ value.roots := by
  cases value <;> cases is
  exact fun _ mem => mem

theorem picks_classes (value : Value) (cs : List Class) (is : value.classes? = some cs) :
    ∀ e ∈ cs.flatMap Class.roots, e ∈ value.roots := by
  cases value <;> cases is
  exact fun _ mem => mem

theorem expr (within : WithinLevels levels filled) {e : Expr}
    (is : filled.require Value.expr? key = .ok e) : e.LevelsWithin levels :=
  within.require picks_expr is e (List.mem_singleton_self e)

theorem exprOrNone (within : WithinLevels levels filled) :
    ∀ e ∈ filled.optional Value.expr? key, e.LevelsWithin levels :=
  fun e is => within.optional picks_expr e is e (List.mem_singleton_self e)

/-- A list that is left out has no expressions. -/
theorem listed {pick : Value → Option (List α)} {roots : α → List Expr}
    (within : WithinLevels levels filled)
    (picks : ∀ value as, pick value = some as → ∀ e ∈ as.flatMap roots, e ∈ value.roots) :
    ∀ e ∈ ((filled.optional pick key).getD []).flatMap roots, e.LevelsWithin levels := by
  intro e mem
  cases is : filled.optional pick key with
  | none =>
    rw [is] at mem
    exact absurd mem List.not_mem_nil
  | some as =>
    rw [is] at mem
    exact within.optional picks as is e mem

end WithinLevels

/-! ## Expressions -/

section Forms

variable {inner : Json → Except Fault Expr}
  (bounded : Bounded Json.depth 0 (fun e => [e]) inner)

include bounded

theorem readBranch_bounded :
    Bounded Json.depth 1 (fun branch => [branch.body]) (readBranch inner) := by
  intro node branch is e mem
  obtain ⟨filled, read, is⟩ := bind_eq_ok.mp is
  obtain ⟨name, -, is⟩ := bind_eq_ok.mp is
  obtain ⟨type, -, is⟩ := bind_eq_ok.mp is
  obtain ⟨body, hbody, ⟨⟩⟩ := bind_eq_ok.mp is
  have within : WithinLevels (node.depth - 1) filled := .of_fill counts_json read
    ⟨bounded_text _, bounded_text _, bounded_expr bounded _, bounded_line _⟩
  rw [List.mem_singleton.mp mem]
  exact within.expr hbody

theorem readAssign_bounded : Bounded Json.depth 1 Form.children (readAssign inner) := by
  intro node form is
  obtain ⟨filled, read, is⟩ := bind_eq_ok.mp is
  obtain ⟨name, -, is⟩ := bind_eq_ok.mp is
  obtain ⟨value, hvalue, ⟨⟩⟩ := bind_eq_ok.mp is
  have within : WithinLevels (node.depth - 1) filled :=
    .of_fill counts_json read ⟨bounded_text _, bounded_expr bounded _⟩
  exact List.forall_mem_singleton.mpr (within.expr hvalue)

theorem readCond_bounded : Bounded Json.depth 1 Form.children (readCond inner) := by
  intro node form is
  obtain ⟨filled, read, is⟩ := bind_eq_ok.mp is
  obtain ⟨predicate, hpredicate, is⟩ := bind_eq_ok.mp is
  obtain ⟨thenArm, hthen, is⟩ := bind_eq_ok.mp is
  obtain ⟨elseArm, helse, ⟨⟩⟩ := bind_eq_ok.mp is
  have within : WithinLevels (node.depth - 1) filled := .of_fill counts_json read
    ⟨bounded_expr bounded _, bounded_expr bounded _, bounded_expr bounded _⟩
  exact List.forall_mem_cons.mpr ⟨within.expr hpredicate,
    List.forall_mem_cons.mpr ⟨within.expr hthen,
      List.forall_mem_singleton.mpr (within.expr helse)⟩⟩

theorem readLoop_bounded : Bounded Json.depth 1 Form.children (readLoop inner) := by
  intro node form is
  obtain ⟨filled, read, is⟩ := bind_eq_ok.mp is
  obtain ⟨condition, hcondition, is⟩ := bind_eq_ok.mp is
  obtain ⟨body, hbody, ⟨⟩⟩ := bind_eq_ok.mp is
  have within : WithinLevels (node.depth - 1) filled :=
    .of_fill counts_json read ⟨bounded_expr bounded _, bounded_expr bounded _⟩
  exact List.forall_mem_cons.mpr
    ⟨within.expr hcondition, List.forall_mem_singleton.mpr (within.expr hbody)⟩

theorem readLet_bounded : Bounded Json.depth 1 Form.children (readLet inner) := by
  intro node form is
  obtain ⟨filled, read, is⟩ := bind_eq_ok.mp is
  obtain ⟨name, -, is⟩ := bind_eq_ok.mp is
  obtain ⟨type, -, is⟩ := bind_eq_ok.mp is
  obtain ⟨body, hbody, ⟨⟩⟩ := bind_eq_ok.mp is
  have within : WithinLevels (node.depth - 1) filled := .of_fill counts_json read
    ⟨bounded_text _, bounded_text _, bounded_exprOrNull bounded _, bounded_expr bounded _⟩
  exact List.forall_mem_append.mpr ⟨fun e mem => within.exprOrNone e (Option.mem_toList.mp mem),
    List.forall_mem_singleton.mpr (within.expr hbody)⟩

omit bounded in
/-- The expressions of a call, which may lack its receiver and its arguments. -/
theorem call_bounded {levels : Nat} {filled : Filled} (within : WithinLevels levels filled)
    (receiver args : String) :
    ∀ e ∈ (filled.optional Value.expr? receiver).toList ++
      (filled.optional Value.exprs? args).getD [], e.LevelsWithin levels := by
  have listed : ∀ e ∈ ((filled.optional Value.exprs? args).getD []).flatMap (fun e => [e]),
      e.LevelsWithin levels := within.listed WithinLevels.picks_exprs
  rw [List.flatMap_singleton'] at listed
  exact List.forall_mem_append.mpr
    ⟨fun e mem => within.exprOrNone e (Option.mem_toList.mp mem), listed⟩

theorem readDispatch_bounded : Bounded Json.depth 1 Form.children (readDispatch inner) := by
  intro node form is
  obtain ⟨filled, read, is⟩ := bind_eq_ok.mp is
  obtain ⟨method, -, ⟨⟩⟩ := bind_eq_ok.mp is
  have within : WithinLevels (node.depth - 1) filled := .of_fill counts_json read
    ⟨bounded_exprOrNull bounded _, bounded_text _,
      (bounded_exprs counts_json bounded _).mono (Nat.zero_le 1)⟩
  exact call_bounded within _ _

theorem readStaticDispatch_bounded :
    Bounded Json.depth 1 Form.children (readStaticDispatch inner) := by
  intro node form is
  obtain ⟨filled, read, is⟩ := bind_eq_ok.mp is
  obtain ⟨type, -, is⟩ := bind_eq_ok.mp is
  obtain ⟨method, -, ⟨⟩⟩ := bind_eq_ok.mp is
  have within : WithinLevels (node.depth - 1) filled := .of_fill counts_json read
    ⟨bounded_exprOrNull bounded _, bounded_text _, bounded_text _,
      (bounded_exprs counts_json bounded _).mono (Nat.zero_le 1)⟩
  exact call_bounded within _ _

theorem readCase_bounded : Bounded Json.depth 1 Form.children (readCase inner) := by
  intro node form is
  obtain ⟨filled, read, is⟩ := bind_eq_ok.mp is
  obtain ⟨scrutinee, hscrutinee, is⟩ := bind_eq_ok.mp is
  obtain ⟨branches, hbranches, ⟨⟩⟩ := bind_eq_ok.mp is
  have bodies : Bounded Json.depth 2 Value.roots
      (Field.items .branches (readBranch inner) "branches").read :=
    bounded_items counts_json (readBranch_bounded bounded)
      (fun bs e mem => by rwa [← List.map_eq_flatMap]) "branches"
  have within : WithinLevels (node.depth - 1) filled := .of_fill counts_json read
    ⟨bounded_expr bounded _, bodies.mono (Nat.zero_le 2)⟩
  refine List.forall_mem_cons.mpr ⟨within.expr hscrutinee, ?_⟩
  exact within.require WithinLevels.picks_branches hbranches

/-- The operands of a binary operator are a record that is written as an array. -/
theorem readBinary_bounded (op : Operator) :
    Bounded Json.depth 1 Form.children (readBinary inner op) := by
  intro node form is
  obtain ⟨shape, shown, is⟩ := bind_eq_ok.mp is
  cases shape with
  | scalar | mapping => cases is
  | sequence items =>
    obtain ⟨filled, read, is⟩ := bind_eq_ok.mp is
    obtain ⟨left, hleft, is⟩ := bind_eq_ok.mp is
    obtain ⟨right, hright, ⟨⟩⟩ := bind_eq_ok.mp is
    have read : (operandRecord inner op).fill .tupleVariant node = .ok filled :=
      bind_eq_ok.mpr ⟨_, shown, read⟩
    have within : WithinLevels (node.depth - 1) filled :=
      .of_fill counts_json read ⟨bounded_expr bounded _, bounded_expr bounded _⟩
    exact List.forall_mem_cons.mpr
      ⟨within.expr hleft, List.forall_mem_singleton.mpr (within.expr hright)⟩

omit bounded in
theorem readNoExpr_bounded : Bounded Json.depth 1 Form.children readNoExpr := by
  intro node form is e mem
  obtain ⟨shape, -, is⟩ := bind_eq_ok.mp is
  split at is <;> cases is <;> exact absurd mem List.not_mem_nil

/-- The expressions inside an expression have at most as many levels as the value of its kind has
brackets. -/
theorem readForm_bounded (kind : Kind) :
    Bounded Json.depth 0 Form.children (readForm inner kind) := by
  cases kind with
  | int | bool | string | object | new => exact bounded_flat fun _ => rfl
  | negate | complement | isVoid => exact bounded.map fun _ _ mem => mem
  | block =>
    refine ((bounded.items counts_json).mono (Nat.zero_le 1)).map fun es e mem => ?_
    rw [List.flatMap_singleton']
    exact mem
  | assign => exact (readAssign_bounded bounded).mono (Nat.zero_le 1)
  | dispatch => exact (readDispatch_bounded bounded).mono (Nat.zero_le 1)
  | staticDispatch => exact (readStaticDispatch_bounded bounded).mono (Nat.zero_le 1)
  | cond => exact (readCond_bounded bounded).mono (Nat.zero_le 1)
  | loop => exact (readLoop_bounded bounded).mono (Nat.zero_le 1)
  | case => exact (readCase_bounded bounded).mono (Nat.zero_le 1)
  | letIn => exact (readLet_bounded bounded).mono (Nat.zero_le 1)
  | binary op => exact (readBinary_bounded bounded op).mono (Nat.zero_le 1)
  | noExpr => exact readNoExpr_bounded.mono (Nat.zero_le 1)

/-- An expression is an object around the value of its kind, which is around its parts. -/
theorem readExprWith_bounded (counts : Counts depth) :
    Bounded depth 0 (fun e => [e]) (readExprWith inner : δ → Except Fault Expr) := by
  intro node e is
  refine List.forall_mem_singleton.mpr ?_
  obtain ⟨cells, others, kind, value, shape, -, buffers, found, reads⟩ :=
    readExprWith_eq_ok_iff.mp is
  obtain ⟨key, mem, -⟩ := mem_of_kindEntry? found
  obtain ⟨cell, hcell, -, buffered⟩ := exists_mem_of_forall₂ buffers mem
  have less := counts.part (.entry shape (List.mem_map_of_mem (List.mem_filter.mp hcell).1))
  have same : value.depth = depth cell.2 := counts.buffer buffered
  obtain ⟨levels, hlevels⟩ : ∃ levels, depth node - 0 = levels + 1 := ⟨depth node - 1, by omega⟩
  rw [hlevels, Expr.levelsWithin_succ]
  intro child mem
  exact (readForm_bounded bounded kind value e.form reads child mem).mono (by omega)

end Forms

theorem readJsonExpr_bounded (fuel : Nat) :
    Bounded Json.depth 0 (fun e => [e]) (readJsonExpr fuel) := by
  induction fuel with
  | zero => exact fun _ _ is => nomatch is
  | succ fuel ih => exact readExprWith_bounded ih counts_json

theorem readExpr_bounded : Bounded Draft.depth 0 (fun e => [e]) readExpr :=
  readExprWith_bounded (fun node => readJsonExpr_bounded (node.depth + 1) node) counts_draft

/-! ## Programs -/

theorem readAttribute_bounded :
    Bounded Draft.depth 1 (fun decl => decl.init.toList) readAttribute := by
  intro node decl is e mem
  obtain ⟨filled, read, is⟩ := bind_eq_ok.mp is
  obtain ⟨name, -, is⟩ := bind_eq_ok.mp is
  obtain ⟨type, -, ⟨⟩⟩ := bind_eq_ok.mp is
  have within : WithinLevels (node.depth - 1) filled := .of_fill counts_draft read
    ⟨bounded_text _, bounded_text _, bounded_exprOrNull readExpr_bounded _, bounded_line _⟩
  exact within.exprOrNone e (Option.mem_toList.mp mem)

theorem readMethod_bounded : Bounded Draft.depth 1 (fun decl => [decl.body]) readMethod := by
  intro node decl is
  obtain ⟨filled, read, is⟩ := bind_eq_ok.mp is
  obtain ⟨name, -, is⟩ := bind_eq_ok.mp is
  obtain ⟨returnType, -, is⟩ := bind_eq_ok.mp is
  obtain ⟨body, hbody, ⟨⟩⟩ := bind_eq_ok.mp is
  have within : WithinLevels (node.depth - 1) filled := .of_fill counts_draft read
    ⟨bounded_text _, bounded_flat fun _ => rfl, bounded_text _, bounded_expr readExpr_bounded _,
      bounded_line _⟩
  exact List.forall_mem_singleton.mpr (within.expr hbody)

theorem readFeatureOf_bounded (key : String) :
    Bounded Draft.depth 1 Feature.roots (readFeatureOf key) := by
  intro node feature is
  rw [readFeatureOf] at is
  split at is
  · obtain ⟨decl, reads, rfl⟩ := map_eq_ok.mp is
    exact readAttribute_bounded node decl reads
  · split at is
    · obtain ⟨decl, reads, rfl⟩ := map_eq_ok.mp is
      exact readMethod_bounded node decl reads
    · cases is

theorem readFeature_bounded : Bounded Draft.depth 2 Feature.roots readFeature := by
  intro node feature is e mem
  rw [readFeature.eq_def] at is
  split at is
  · next key part rest closed =>
    obtain ⟨feature', reads, is⟩ := bind_eq_ok.mp is
    split at is <;> cases is
    have less : part.depth < (Draft.object ((some key, part) :: rest) closed).depth :=
      Nat.lt_succ_of_le (Nat.le_max_left ..)
    exact (readFeatureOf_bounded key part feature reads e mem).mono (by omega)
  · split at is <;> cases is
  · cases is

theorem readClass_bounded : Bounded Draft.depth 4 Class.roots readClass := by
  intro node c is
  obtain ⟨filled, read, is⟩ := bind_eq_ok.mp is
  obtain ⟨name, -, ⟨⟩⟩ := bind_eq_ok.mp is
  have wraps : ∀ fs, ∀ e ∈ (Value.features fs).roots, e ∈ fs.flatMap Feature.roots :=
    fun _ _ mem => mem
  have within : WithinLevels (node.depth - 4) filled := .of_fill counts_draft read
    ⟨bounded_text _, bounded_textOrNull _, bounded_textOrNull _, bounded_line _,
      bounded_items counts_draft readFeature_bounded wraps _⟩
  exact within.listed WithinLevels.picks_features

/-- Six brackets stand around the outermost expressions of a program. -/
theorem readProgram_bounded : Bounded Draft.depth 6 Program.roots readProgram := by
  intro node p is
  obtain ⟨filled, read, is⟩ := bind_eq_ok.mp is
  obtain ⟨classes, hclasses, ⟨⟩⟩ := bind_eq_ok.mp is
  have wraps : ∀ cs, ∀ e ∈ (Value.classes cs).roots, e ∈ cs.flatMap Class.roots :=
    fun _ _ mem => mem
  have within : WithinLevels (node.depth - 6) filled := .of_fill counts_draft read
    (bounded_items counts_draft readClass_bounded wraps _)
  exact within.require WithinLevels.picks_classes hclasses

end Bounds

end Source

end SelfTyped
