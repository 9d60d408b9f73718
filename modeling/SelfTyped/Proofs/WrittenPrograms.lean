/-
SelfTyped.Proofs.WrittenPrograms — how deep written programs are.

The limit on the nesting of a text has two constants: an expression adds at
most four levels to the deepest expression inside it, and a program at most
eight to its deepest expression.  Both are statements about one JSON value
around others (`Around`): `Expr.around_toJson` and `Program.around_toJson` go
through the forms once, and the depth (`Around.depth_le`) as well as the range
of the numbers (`Around.exact`) are read off them.
-/
import Mathlib.Data.List.Basic
import SelfTyped.Proofs.JsonText
import SelfTyped.Source.Extent
import SelfTyped.Source.Printer

namespace SelfTyped

namespace Json

/-! ## Depth -/

theorem depthItems_le_iff {items : List Json} {bound : Nat} :
    depthItems items ≤ bound ↔ ∀ item ∈ items, item.depth ≤ bound := by
  induction items with
  | nil => simp [depthItems]
  | cons item items ih => rw [depthItems, Nat.max_le, ih, List.forall_mem_cons]

theorem depthEntries_le_iff {entries : List (String × Json)} {bound : Nat} :
    depthEntries entries ≤ bound ↔ ∀ entry ∈ entries, entry.2.depth ≤ bound := by
  induction entries with
  | nil => simp [depthEntries]
  | cons entry entries ih =>
    obtain ⟨key, value⟩ := entry
    rw [depthEntries, Nat.max_le, ih, List.forall_mem_cons]

theorem depth_item_lt {items : List Json} {item : Json} (mem : item ∈ items) :
    item.depth < (array items).depth :=
  Nat.lt_succ_of_le (depthItems_le_iff.mp (Nat.le_refl _) item mem)

end Json

namespace Source

open Json (Exact Fits)

variable {cells : List (String × Option Json)}

theorem mem_record {key : String} {j : Json} :
    (key, j) ∈ cells.filterMap (fun cell => cell.2.map (cell.1, ·)) ↔ (key, some j) ∈ cells := by
  rw [List.mem_filterMap]
  constructor
  · rintro ⟨⟨key', value⟩, mem, is⟩
    obtain ⟨j', rfl, same⟩ := Option.map_eq_some_iff.mp is
    cases same
    exact mem
  · exact fun mem => ⟨_, mem, rfl⟩

theorem depth_cell_lt {key : String} {j : Json} (mem : (key, some j) ∈ cells) :
    j.depth < (record cells).depth :=
  Nat.lt_succ_of_le (Json.depthEntries_le_iff.mp (Nat.le_refl _) _ (mem_record.mpr mem))

/-- A record is as deep as the deepest of its fields, and more. -/
theorem le_depth_record {key : String} {j : Json} {bound : Nat} (deep : bound ≤ j.depth)
    (mem : (key, some j) ∈ cells) : bound ≤ (record cells).depth :=
  Nat.le_trans deep (Nat.le_of_lt (depth_cell_lt mem))

theorem depth_record_le {bound : Nat} (each : ∀ cell ∈ cells, ∀ j ∈ cell.2, j.depth ≤ bound) :
    (record cells).depth ≤ bound + 1 :=
  Nat.succ_le_succ (Json.depthEntries_le_iff.mpr fun entry mem =>
    each _ (mem_record.mp mem) entry.2 rfl)

/-! ## Values around others -/

/-- A value with at most so many levels around those of its parts for which `inner` holds. -/
inductive Around (inner : Json → Prop) : Nat → Json → Prop
  | inner {n : Nat} {j : Json} (holds : inner j) : Around inner n j
  | scalar {n : Nat} {j : Json} (flat : j.depth = 0) (exact : j.Exact) : Around inner n j
  | array {n : Nat} {items : List Json} (each : ∀ item ∈ items, Around inner n item) :
    Around inner (n + 1) (.array items)
  | record {n : Nat} {cells : List (String × Option Json)}
    (each : ∀ cell ∈ cells, ∀ j ∈ cell.2, Around inner n j) : Around inner (n + 1) (record cells)

namespace Around

variable {inner : Json → Prop} {n : Nat} {j : Json}

theorem depth_le {bound : Nat} (deep : ∀ j, inner j → j.depth ≤ bound) (around : Around inner n j) :
    j.depth ≤ bound + n := by
  induction around with
  | inner holds => exact Nat.le_add_right_of_le (deep _ holds)
  | scalar flat => exact flat ▸ Nat.zero_le _
  | array each ih => exact Nat.succ_le_succ (Json.depthItems_le_iff.mpr ih)
  | record each ih => exact depth_record_le ih

theorem exact (fits : ∀ j, inner j → j.Exact) (around : Around inner n j) : j.Exact := by
  induction around with
  | inner holds => exact fits _ holds
  | scalar flat exact => exact exact
  | array each ih => exact .node nofun ih
  | record each ih =>
    refine .node nofun fun part mem => ?_
    obtain ⟨entry, inside, rfl⟩ := List.mem_map.mp mem
    exact ih _ (mem_record.mp inside) _ rfl

theorem string (value : String) : Around inner n (.string value) :=
  .scalar rfl (.node nofun nofun)

theorem integer {value : Int} (fits : Fits value) : Around inner n (.number (.integer value)) :=
  .scalar rfl (.node (fun _ is => ⟨value, (Json.number.inj is).symm, fits⟩) nofun)

theorem some (around : Around inner n j) : ∀ j' ∈ Option.some j, Around inner n j' := by
  rintro _ ⟨⟩
  exact around

theorem line {line : Option Nat} (inRange : LineInRange line) :
    ∀ j ∈ lineToJson line, Around inner n j := by
  intro j mem
  obtain ⟨number, rfl, rfl⟩ := Option.map_eq_some_iff.mp mem
  have word := inRange number rfl
  exact integer ⟨by omega, by omega⟩

theorem map {α : Type} {a : Option α} {write : α → Json}
    (each : ∀ value ∈ a, Around inner n (write value)) :
    ∀ j ∈ a.map write, Around inner n j := by
  intro j mem
  obtain ⟨value, is, rfl⟩ := Option.map_eq_some_iff.mp mem
  exact each value is

theorem items {α : Type} {items : List α} {write : α → Json}
    (each : ∀ item ∈ items, Around inner n (write item)) :
    Around inner (n + 1) (.array (items.map write)) :=
  array (List.forall_mem_map.mpr each)

theorem fields (each : cells.Forall fun cell => ∀ j ∈ cell.2, Around inner n j) :
    Around inner (n + 1) (Source.record cells) :=
  record (List.forall_iff_forall_mem.mp each)

end Around

/-! ## Lists of parts -/

/-- A branch as a JSON value. -/
def Branch.toJson (branch : Branch) : Json :=
  record [("name", some (.string branch.name)), ("type", some (.string branch.type)),
    ("body", some branch.body.toJson), ("line", lineToJson branch.line)]

theorem optionalToJson_eq (e : Option Expr) : optionalToJson e = e.map Expr.toJson := by
  cases e <;> rfl

theorem itemsToJson_eq (items : List Expr) : itemsToJson items = items.map Expr.toJson := by
  induction items with
  | nil => rfl
  | cons item items ih => rw [itemsToJson, ih, List.map_cons]

theorem branchesToJson_eq (branches : List Branch) :
    branchesToJson branches = branches.map Branch.toJson := by
  induction branches with
  | nil => rfl
  | cons branch branches ih =>
    obtain ⟨name, type, body, line⟩ := branch
    rw [branchesToJson, ih, List.map_cons]
    rfl

namespace Form

theorem payload_dispatch (receiver : Option Expr) (method : Name) (args : List Expr) :
    (dispatch receiver method args).payload =
      record [("receiver", receiver.map Expr.toJson), ("method", some (.string method)),
        ("args", some (.array (args.map Expr.toJson)))] := by
  rw [← optionalToJson_eq, ← itemsToJson_eq]
  rfl

theorem payload_staticDispatch (receiver : Option Expr) (type method : Name) (args : List Expr) :
    (staticDispatch receiver type method args).payload =
      record [("receiver", receiver.map Expr.toJson), ("type", some (.string type)),
        ("method", some (.string method)), ("args", some (.array (args.map Expr.toJson)))] := by
  rw [← optionalToJson_eq, ← itemsToJson_eq]
  rfl

theorem payload_case (scrutinee : Expr) (branches : List Branch) :
    (case scrutinee branches).payload =
      record [("expr", some scrutinee.toJson),
        ("branches", some (.array (branches.map Branch.toJson)))] := by
  rw [← branchesToJson_eq]
  rfl

theorem payload_block (items : List Expr) :
    (block items).payload = .array (items.map Expr.toJson) := by
  rw [← itemsToJson_eq]
  rfl

theorem payload_letIn (name type : Name) (init : Option Expr) (body : Expr) :
    (letIn name type init body).payload =
      record [("name", some (.string name)), ("type", some (.string type)),
        ("init", init.map Expr.toJson), ("body", some body.toJson)] := by
  rw [← optionalToJson_eq]
  rfl

end Form

/-! ## Expressions -/

section Expressions

variable {inner : Json → Prop}

/-- What stands under the key of a kind adds at most three levels: the body of a branch stands in
an object, in an array, in an object. -/
theorem Form.around_payload {form : Form}
    (branches : ∀ branch ∈ form.branches, LineInRange branch.line)
    (literal : ∀ value ∈ form.literal?, -literalBound ≤ value ∧ value < literalBound)
    (inside : ∀ child ∈ form.children, inner child.toJson) : Around inner 3 form.payload := by
  have child : ∀ {n}, ∀ e ∈ form.children, Around inner n e.toJson :=
    fun e mem => .inner (inside e mem)
  cases form with
  | int value =>
    obtain ⟨atLeast, below⟩ := literal value rfl
    have half : literalBound = (Json.Numeral.wordCount / 2 : Nat) := by decide
    exact .integer ⟨by omega, by omega⟩
  | bool value => exact .scalar rfl (.node nofun nofun)
  | string value => exact .string value
  | object name => exact .string name
  | new type => exact .string type
  | noExpr => exact .scalar rfl (.node nofun nofun)
  | assign name value => exact .fields ⟨.some (.string _), .some (child _ (.head _))⟩
  | dispatch receiver method args =>
    rw [payload_dispatch]
    exact .fields ⟨.map fun e mem => child e (List.mem_append_left _ (Option.mem_toList.mpr mem)),
      .some (.string _), .some (.items fun e mem => child e (List.mem_append_right _ mem))⟩
  | staticDispatch receiver type method args =>
    rw [payload_staticDispatch]
    exact .fields ⟨.map fun e mem => child e (List.mem_append_left _ (Option.mem_toList.mpr mem)),
      .some (.string _), .some (.string _),
      .some (.items fun e mem => child e (List.mem_append_right _ mem))⟩
  | cond predicate thenArm elseArm =>
    exact .fields ⟨.some (child _ (.head _)), .some (child _ (.tail _ (.head _))),
      .some (child _ (.tail _ (.tail _ (.head _))))⟩
  | loop condition body =>
    exact .fields ⟨.some (child _ (.head _)), .some (child _ (.tail _ (.head _)))⟩
  | case scrutinee cases =>
    rw [payload_case]
    refine .fields ⟨.some (child _ (.head _)), .some (.items fun branch mem => ?_)⟩
    have body : Around _ 0 branch.body.toJson := child _ (.tail _ (List.mem_map_of_mem mem))
    exact .fields ⟨.some (.string _), .some (.string _), .some body, .line (branches branch mem)⟩
  | block items =>
    rw [payload_block]
    exact .items child
  | letIn name type init body =>
    rw [payload_letIn]
    exact .fields ⟨.some (.string _), .some (.string _),
      .map fun e mem => child e (List.mem_append_left _ (Option.mem_toList.mpr mem)),
      .some (child _ (List.mem_append_right _ (.head _)))⟩
  | binary op left right =>
    show Around inner 3 (.array ([left, right].map Expr.toJson))
    exact .items child
  | negate operand => exact child _ (.head _)
  | complement operand => exact child _ (.head _)
  | isVoid operand => exact child _ (.head _)

/-- An expression adds at most four levels. -/
theorem Expr.around_toJson {e : Expr} (inRange : e.InRange)
    (inside : ∀ child ∈ e.form.children, inner child.toJson) : Around inner 4 e.toJson := by
  obtain ⟨line, branches, literal, -⟩ := inRange
  obtain ⟨number, form⟩ := e
  exact .fields ⟨.some (Form.around_payload branches literal inside), .line line⟩

theorem Expr.InRange.inside {e child : Expr} (inRange : e.InRange) (mem : child ∈ e.form.children) :
    child.InRange := by
  cases inRange with
  | node _ _ _ inside => exact inside child mem

/-- The numbers of an expression are written as they are. -/
theorem Expr.InRange.exact {e : Expr} (inRange : e.InRange) : e.toJson.Exact := by
  induction inRange with
  | @node e line branches literal inside ih =>
    exact (Expr.around_toJson (.node line branches literal inside) ih).exact fun _ exact => exact

/-- The text of an expression nests four times as deeply as the expression. -/
theorem Expr.depth_toJson {levels : Nat} {e : Expr} (inRange : e.InRange)
    (nests : e.NestsWithin levels) : e.toJson.depth ≤ 4 * (levels + 1) := by
  induction levels generalizing e with
  | zero =>
    have inside : ∀ child ∈ e.form.children, child.toJson.depth ≤ 0 := by
      rw [show e.form.children = [] from nests]
      nofun
    exact (Expr.around_toJson inRange inside).depth_le fun _ deep => deep
  | succ levels ih =>
    have inside : ∀ child ∈ e.form.children, child.toJson.depth ≤ 4 * (levels + 1) :=
      fun child mem => ih (inRange.inside mem) (nests child mem)
    exact (Expr.around_toJson inRange inside).depth_le fun _ deep => deep

/-- What stands under the key of a kind is at least as deep as the expressions in it. -/
theorem Form.depth_child_le {form : Form} {child : Expr} (mem : child ∈ form.children) :
    child.toJson.depth ≤ form.payload.depth := by
  have here : child.toJson.depth ≤ child.toJson.depth := Nat.le_refl _
  have item : ∀ {items : List Expr}, child ∈ items →
      child.toJson.depth ≤ (Json.array (items.map Expr.toJson)).depth :=
    fun mem => Nat.le_of_lt (Json.depth_item_lt (List.mem_map_of_mem mem))
  have optional : ∀ {e : Option Expr}, child ∈ e.toList →
      e.map Expr.toJson = some child.toJson := by
    intro e mem
    rw [Option.mem_toList.mp mem]
    rfl
  cases form with
  | int | bool | string | object | new | noExpr => exact absurd mem List.not_mem_nil
  | negate operand | complement operand | isVoid operand =>
    rw [List.mem_singleton.mp mem]
    exact Nat.le_refl _
  | assign name value =>
    rw [List.mem_singleton.mp mem] at here ⊢
    exact le_depth_record here (.tail _ (.head _))
  | dispatch receiver method args =>
    rw [payload_dispatch]
    rcases List.mem_append.mp mem with mem | mem
    · rw [optional mem]
      exact le_depth_record here (.head _)
    · exact le_depth_record (item mem) (.tail _ (.tail _ (.head _)))
  | staticDispatch receiver type method args =>
    rw [payload_staticDispatch]
    rcases List.mem_append.mp mem with mem | mem
    · rw [optional mem]
      exact le_depth_record here (.head _)
    · exact le_depth_record (item mem) (.tail _ (.tail _ (.tail _ (.head _))))
  | cond predicate thenArm elseArm =>
    rcases mem with _ | ⟨_, _ | ⟨_, _ | ⟨_, ⟨⟩⟩⟩⟩
    · exact le_depth_record here (.head _)
    · exact le_depth_record here (.tail _ (.head _))
    · exact le_depth_record here (.tail _ (.tail _ (.head _)))
  | loop condition body =>
    rcases mem with _ | ⟨_, _ | ⟨_, ⟨⟩⟩⟩
    · exact le_depth_record here (.head _)
    · exact le_depth_record here (.tail _ (.head _))
  | case scrutinee branches =>
    rw [payload_case]
    rcases mem with _ | ⟨_, mem⟩
    · exact le_depth_record here (.head _)
    · obtain ⟨branch, inside, rfl⟩ := List.mem_map.mp mem
      have inBranch : branch.body.toJson.depth ≤ branch.toJson.depth :=
        le_depth_record here (.tail _ (.tail _ (.head _)))
      have inBranches : branch.toJson.depth < (Json.array (branches.map Branch.toJson)).depth :=
        Json.depth_item_lt (List.mem_map_of_mem inside)
      exact le_depth_record (Nat.le_trans inBranch (Nat.le_of_lt inBranches)) (.tail _ (.head _))
  | block items =>
    rw [payload_block]
    exact item mem
  | letIn name type init body =>
    rw [payload_letIn]
    rcases List.mem_append.mp mem with mem | mem
    · rw [optional mem]
      exact le_depth_record here (.tail _ (.tail _ (.head _)))
    · rw [List.mem_singleton.mp mem] at here ⊢
      exact le_depth_record here (.tail _ (.tail _ (.tail _ (.head _))))
  | binary op left right => exact item mem

/-- An expression is written deeper than the expressions in it. -/
theorem Expr.depth_child_lt {e child : Expr} (mem : child ∈ e.form.children) :
    child.toJson.depth < e.toJson.depth := by
  obtain ⟨line, form⟩ := e
  exact Nat.lt_of_le_of_lt (Form.depth_child_le mem) (depth_cell_lt (.head _))

end Expressions

/-! ## Programs -/

section Programs

variable {inner : Json → Prop}

theorem Formal.around_toJson {formal : Formal} (line : LineInRange formal.line) {n : Nat} :
    Around inner (n + 1) formal.toJson :=
  .fields ⟨.some (.string _), .some (.string _), .line line⟩

/-- A feature adds at most four levels: a formal parameter is an object, in an array, in an
object, in an object. -/
theorem Feature.around_toJson {feature : Feature} (inRange : feature.InRange)
    (inside : ∀ root ∈ feature.root?, inner root.toJson) : Around inner 4 feature.toJson := by
  obtain ⟨line, formals, -⟩ := inRange
  cases feature with
  | attr decl =>
    have declared : Around inner 3 decl.toJson :=
      .fields ⟨.some (.string _), .some (.string _), .map fun e mem => .inner (inside e mem),
        .line line⟩
    exact .fields (Around.some declared)
  | method decl =>
    have declared : Around inner 3 decl.toJson :=
      .fields ⟨.some (.string _),
        .some (.items fun formal mem => Formal.around_toJson (formals formal mem)),
        .some (.string _), .some (.inner (inside _ rfl)), .line line⟩
    exact .fields (Around.some declared)

/-- A program adds at most eight levels. -/
theorem Program.around_toJson {p : Program} (inRange : p.InRange)
    (inside : ∀ c ∈ p.classes, ∀ feature ∈ c.features, ∀ root ∈ feature.root?,
      inner root.toJson) : Around inner 8 p.toJson := by
  have classes : ∀ c ∈ p.classes, Around inner 6 c.toJson := by
    intro c mem
    have features : ∀ feature ∈ c.features, Around inner 4 feature.toJson :=
      fun feature mem' => Feature.around_toJson (inRange.features c mem feature mem')
        (inside c mem feature mem')
    exact .fields ⟨.some (.string _), .map fun _ _ => .string _, .map fun _ _ => .string _,
      .line (inRange.lines c mem), .some (.items features)⟩
  exact .fields (Around.some (.items classes))

/-- The numbers of a program are written as they are. -/
theorem Program.InRange.exact {p : Program} (inRange : p.InRange) : p.toJson.Exact :=
  (Program.around_toJson inRange fun c mem feature mem' root is =>
    ((inRange.features c mem feature mem').root root is).exact).exact fun _ exact => exact

/-- The text of a program nests at most eight levels more than its expressions. -/
theorem Program.depth_toJson {levels : Nat} {p : Program} (inRange : p.InRange)
    (nests : p.NestsWithin levels) : p.toJson.depth ≤ 4 * (levels + 1) + 8 := by
  have roots : ∀ c ∈ p.classes, ∀ feature ∈ c.features, ∀ root ∈ feature.root?,
      root.toJson.depth ≤ 4 * (levels + 1) := fun c mem feature mem' root is =>
    Expr.depth_toJson ((inRange.features c mem feature mem').root root is)
      (nests c mem feature mem' root is)
  exact (Program.around_toJson inRange roots).depth_le fun _ deep => deep

end Programs

end Source

end SelfTyped
