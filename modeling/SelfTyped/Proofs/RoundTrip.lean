/-
SelfTyped.Proofs.RoundTrip — every program within the limit can be read
back.

A program is written as a JSON value, and the value as a text.  That the value
is read back from the text is no matter of programs (`JsonText`); here the
program is read back from the value.  What a reader does is one record after
the other, so each step is a list of slots (`Records`) and the claim that the
parts of the record are read back.

Expressions are read from complete values with as much fuel as the value is
deep, and parts of an expression are less deep than the expression.  So the
induction is on the fuel (`readJsonExpr_toJson`).  The text passes the limit on
nesting, which is measured before anything is read, because a program is
written no deeper than the limit allows (`WrittenPrograms`).
-/
import SelfTyped.Proofs.JsonNesting
import SelfTyped.Proofs.Records
import SelfTyped.Proofs.WrittenPrograms
import SelfTyped.Source.Reader

namespace SelfTyped

namespace Source

open Json (Draft)

/-! ## Kinds -/

section Kinds

variable {read : Json → Except Fault Expr}

/-- An expression that is read back. -/
def ReadBack (read : Json → Except Fault Expr) (e : Expr) : Prop :=
  read e.toJson = .ok e

variable {value condition body predicate thenArm elseArm scrutinee left right : Expr}
  {receiver init : Option Expr} {args : List Expr} {branches : List Branch}
  (name type method : Name)

theorem readAssign_payload (values : ReadBack read value) :
    readAssign read (Form.assign name value).payload = .ok (.assign name value) := by
  have holds : List.Forall (Slot.Holds id) [.text "name" name, .expr read "value" value] :=
    ⟨Slot.holds_text shows_json _ _, Slot.holds_required values⟩
  rw [readAssign]
  exact (fill_recordOf shows_json holds (show ["name", "value"].Nodup by simp)).trans rfl

theorem readDispatch_payload (receivers : ∀ e ∈ receiver, ReadBack read e)
    (arguments : ∀ e ∈ args, ReadBack read e) :
    readDispatch read (Form.dispatch receiver method args).payload =
      .ok (.dispatch receiver method args) := by
  have holds : List.Forall (Slot.Holds id) [.exprOrNull read "receiver" receiver,
      .text "method" method, .items .exprs read Expr.toJson "args" args] :=
    ⟨Slot.holds_exprOrNull shows_json receivers, Slot.holds_text shows_json _ _,
      Slot.holds_items shows_json arguments⟩
  rw [readDispatch, Form.payload_dispatch]
  refine (fill_recordOf shows_json holds
    (show ["receiver", "method", "args"].Nodup by simp)).trans ?_
  cases receiver <;> rfl

theorem readStaticDispatch_payload (receivers : ∀ e ∈ receiver, ReadBack read e)
    (arguments : ∀ e ∈ args, ReadBack read e) :
    readStaticDispatch read (Form.staticDispatch receiver type method args).payload =
      .ok (.staticDispatch receiver type method args) := by
  have holds : List.Forall (Slot.Holds id) [.exprOrNull read "receiver" receiver,
      .text "type" type, .text "method" method, .items .exprs read Expr.toJson "args" args] :=
    ⟨Slot.holds_exprOrNull shows_json receivers, Slot.holds_text shows_json _ _,
      Slot.holds_text shows_json _ _, Slot.holds_items shows_json arguments⟩
  rw [readStaticDispatch, Form.payload_staticDispatch]
  refine (fill_recordOf shows_json holds
    (show ["receiver", "type", "method", "args"].Nodup by simp)).trans ?_
  cases receiver <;> rfl

theorem readCond_payload (predicates : ReadBack read predicate) (thenArms : ReadBack read thenArm)
    (elseArms : ReadBack read elseArm) :
    readCond read (Form.cond predicate thenArm elseArm).payload =
      .ok (.cond predicate thenArm elseArm) := by
  have holds : List.Forall (Slot.Holds id) [.expr read "pred" predicate,
      .expr read "then" thenArm, .expr read "else" elseArm] :=
    ⟨Slot.holds_required predicates, Slot.holds_required thenArms, Slot.holds_required elseArms⟩
  rw [readCond]
  exact (fill_recordOf shows_json holds (show ["pred", "then", "else"].Nodup by simp)).trans rfl

theorem readLoop_payload (conditions : ReadBack read condition) (bodies : ReadBack read body) :
    readLoop read (Form.loop condition body).payload = .ok (.loop condition body) := by
  have holds : List.Forall (Slot.Holds id) [.expr read "pred" condition,
      .expr read "body" body] :=
    ⟨Slot.holds_required conditions, Slot.holds_required bodies⟩
  rw [readLoop]
  exact (fill_recordOf shows_json holds (show ["pred", "body"].Nodup by simp)).trans rfl

theorem readBranch_toJson {branch : Branch} (bodies : ReadBack read branch.body) :
    readBranch read branch.toJson = .ok branch := by
  obtain ⟨name, type, body, line⟩ := branch
  have holds : List.Forall (Slot.Holds id) [.text "name" name, .text "type" type,
      .expr read "body" body, .line line] :=
    ⟨Slot.holds_text shows_json _ _, Slot.holds_text shows_json _ _, Slot.holds_required bodies,
      Slot.holds_line shows_json _⟩
  rw [readBranch, branchRecord, Branch.toJson]
  refine (read_recordOf shows_json holds
    (show ["name", "type", "body", "line"].Nodup by simp)).trans ?_
  cases line <;> rfl

theorem readCase_payload (scrutinees : ReadBack read scrutinee)
    (bodies : ∀ branch ∈ branches, ReadBack read branch.body) :
    readCase read (Form.case scrutinee branches).payload = .ok (.case scrutinee branches) := by
  have holds : List.Forall (Slot.Holds id) [.expr read "expr" scrutinee,
      .items .branches (readBranch read) Branch.toJson "branches" branches] :=
    ⟨Slot.holds_required scrutinees,
      Slot.holds_items shows_json fun branch mem => readBranch_toJson (bodies branch mem)⟩
  rw [readCase, Form.payload_case]
  exact (fill_recordOf shows_json holds (show ["expr", "branches"].Nodup by simp)).trans rfl

theorem readLet_payload (inits : ∀ e ∈ init, ReadBack read e) (bodies : ReadBack read body) :
    readLet read (Form.letIn name type init body).payload = .ok (.letIn name type init body) := by
  have holds : List.Forall (Slot.Holds id) [.text "name" name, .text "type" type,
      .exprOrNull read "init" init, .expr read "body" body] :=
    ⟨Slot.holds_text shows_json _ _, Slot.holds_text shows_json _ _,
      Slot.holds_exprOrNull shows_json inits, Slot.holds_required bodies⟩
  rw [readLet, Form.payload_letIn]
  refine (fill_recordOf shows_json holds
    (show ["name", "type", "init", "body"].Nodup by simp)).trans ?_
  cases init <;> rfl

theorem readBinary_payload (op : Operator) (lefts : ReadBack read left)
    (rights : ReadBack read right) :
    readBinary read op (Form.binary op left right).payload = .ok (.binary op left right) := by
  have first : read left.toJson = .ok left := lefts
  have second : read right.toJson = .ok right := rights
  show ((operandRecord read op).fillItems [.ok left.toJson, .ok right.toJson] >>= _) = _
  simp only [Record.fillItems, operandRecord, Record.fillSequence, Field.expr, bind, Except.bind,
    first, second]
  rfl

/-- What stands under the key of a kind is read as that kind. -/
theorem readForm_payload {form : Form} (inside : ∀ child ∈ form.children, ReadBack read child)
    (literal : ∀ value ∈ form.literal?, -literalBound ≤ value ∧ value < literalBound) :
    readForm read form.kind form.payload = .ok form := by
  cases form with
  | int value =>
    have integer : readLiteral (Json.number (.integer value)) = .ok value :=
      readLiteral_integer shows_json (literal value rfl)
    exact congrArg (Except.map Form.int) integer
  | bool value => rfl
  | string value => rfl
  | object name => rfl
  | new type => rfl
  | noExpr => rfl
  | assign name value => exact readAssign_payload name (inside value (.head _))
  | dispatch receiver method args => 
    exact readDispatch_payload method
      (fun e mem => inside e (List.mem_append_left _ (Option.mem_toList.mpr mem)))
      (fun e mem => inside e (List.mem_append_right _ mem))
  | staticDispatch receiver type method args =>
    exact readStaticDispatch_payload type method
      (fun e mem => inside e (List.mem_append_left _ (Option.mem_toList.mpr mem)))
      (fun e mem => inside e (List.mem_append_right _ mem))
  | cond predicate thenArm elseArm =>
    exact readCond_payload (inside _ (.head _)) (inside _ (.tail _ (.head _)))
      (inside _ (.tail _ (.tail _ (.head _))))
  | loop condition body =>
    exact readLoop_payload (inside _ (.head _)) (inside _ (.tail _ (.head _)))
  | case scrutinee branches =>
    exact readCase_payload (inside _ (.head _)) fun branch mem =>
      inside _ (.tail _ (List.mem_map_of_mem mem))
  | block items =>
    rw [Form.payload_block]
    have read : readItems read (.array (items.map Expr.toJson)) = .ok items :=
      readItems_array shows_json inside
    exact congrArg (Except.map Form.block) read
  | letIn name type init body =>
    exact readLet_payload name type
      (fun e mem => inside e (List.mem_append_left _ (Option.mem_toList.mpr mem)))
      (inside _ (List.mem_append_right _ (.head _)))
  | binary op left right =>
    exact readBinary_payload op (inside _ (.head _)) (inside _ (.tail _ (.head _)))
  | negate operand => exact congrArg (Except.map Form.negate) (inside _ (.head _))
  | complement operand => exact congrArg (Except.map Form.complement) (inside _ (.head _))
  | isVoid operand => exact congrArg (Except.map Form.isVoid) (inside _ (.head _))

end Kinds

/-! ## Expressions -/

theorem Kind.ofKey?_key (kind : Kind) : Kind.ofKey? kind.key = some kind := by
  cases kind with
  | binary op => cases op <;> rfl
  | _ => rfl

theorem Kind.key_ne_line (kind : Kind) : (kind.key == "line") = false := by
  cases kind with
  | binary op => cases op <;> rfl
  | _ => rfl

theorem kindEntry?_key (kind : Kind) (value : Json) :
    kindEntry? [(kind.key, value)] = some (kind, value) := by
  simp [ kindEntry?, Kind.ofKey?_key]

variable {δ : Type} [Node δ] {embed : Json → δ}

/-- The line is read where it stands, and the kind is kept. -/
theorem splitEntries_written (shows : Shows embed) (kind : Kind) (value : Json) :
    ∀ line : Option Nat,
      splitEntries
          ((([(kind.key, some value), ("line", lineToJson line)] : List _).filterMap
            fun cell => cell.2.map (cell.1, ·)).map fun entry => .ok (entry.1, embed entry.2))
          none [] =
        .ok (line, [(kind.key, value)])
  | none => by
    show splitEntries [.ok (kind.key, embed value)] none [] = _
    simp only [splitEntries, bind, Except.bind, Kind.key_ne_line, shows.buffer]
    rfl
  | some line => by
    have number : readOptional readLine (embed (.number (.integer line))) = .ok (some line) :=
      readOptional_value shows Json.noConfusion (readLine_integer shows line)
    show splitEntries [.ok (kind.key, embed value),
      .ok ("line", embed (.number (.integer line)))] none [] = _
    simp only [splitEntries, bind, Except.bind, Kind.key_ne_line, shows.buffer, number]
    rfl

/-- An expression is read back if what stands under the key of its kind is. -/
theorem readExprWith_toJson (shows : Shows embed) {inner : Json → Except Fault Expr} {e : Expr}
    (form : readForm inner e.form.kind e.form.payload = .ok e.form) :
    readExprWith inner (embed e.toJson) = .ok e := by
  obtain ⟨line, kind⟩ := e
  rw [readExprWith, Expr.toJson, record, shows.object]
  show (splitEntries _ none [] >>= _) = _
  rw [splitEntries_written shows]
  simp only [bind, Except.bind, kindEntry?_key]
  rw [form]
  rfl

/-- An expression is read back from a complete value, with as much fuel as the value is deep. -/
theorem readJsonExpr_toJson {fuel : Nat} {e : Expr} (inRange : e.InRange)
    (enough : e.toJson.depth < fuel) : readJsonExpr fuel e.toJson = .ok e := by
  induction fuel generalizing e with
  | zero => exact absurd enough (Nat.not_lt_zero _)
  | succ fuel ih =>
    refine readExprWith_toJson shows_json (readForm_payload (fun child mem => ?_) ?_)
    · have smaller := Expr.depth_child_lt mem
      exact ih (inRange.inside mem) (by omega)
    · cases inRange with
      | node _ _ literal _ => exact literal

theorem readExpr_toJson {e : Expr} (inRange : e.InRange) :
    readExpr (.ofJson e.toJson) = .ok e := by
  refine readExprWith_toJson shows_draft (readForm_payload (fun child mem => ?_) ?_)
  · exact readJsonExpr_toJson (inRange.inside mem) (Nat.lt_succ_self _)
  · cases inRange with
    | node _ _ literal _ => exact literal

/-! ## Programs -/

theorem readFormal_toJson (formal : Formal) : readFormal (.ofJson formal.toJson) = .ok formal := by
  obtain ⟨name, type, line⟩ := formal
  have holds : List.Forall (Slot.Holds Draft.ofJson) [.text "name" name, .text "type" type,
      .line line] :=
    ⟨Slot.holds_text shows_draft _ _, Slot.holds_text shows_draft _ _,
      Slot.holds_line shows_draft _⟩
  rw [readFormal, Formal.toJson]
  refine (read_recordOf shows_draft holds (show ["name", "type", "line"].Nodup by simp)).trans ?_
  cases line <;> rfl

theorem readAttribute_toJson {decl : Attribute} (inits : ∀ e ∈ decl.init, e.InRange) :
    readAttribute (.ofJson decl.toJson) = .ok decl := by
  obtain ⟨name, type, init, line⟩ := decl
  have holds : List.Forall (Slot.Holds Draft.ofJson) [.text "name" name, .text "type" type,
      .exprOrNull readExpr "init" init, .line line] :=
    ⟨Slot.holds_text shows_draft _ _, Slot.holds_text shows_draft _ _,
      Slot.holds_exprOrNull shows_draft fun e mem => readExpr_toJson (inits e mem),
      Slot.holds_line shows_draft _⟩
  rw [readAttribute, Attribute.toJson]
  refine (read_recordOf shows_draft holds
    (show ["name", "type", "init", "line"].Nodup by simp)).trans ?_
  cases init <;> cases line <;> rfl

theorem readMethod_toJson {decl : Method} (body : decl.body.InRange) :
    readMethod (.ofJson decl.toJson) = .ok decl := by
  obtain ⟨name, formals, returnType, body', line⟩ := decl
  have holds : List.Forall (Slot.Holds Draft.ofJson) [.text "name" name,
      .items .formals readFormal Formal.toJson "formals" formals, .text "return_type" returnType,
      .expr readExpr "body" body', .line line] :=
    ⟨Slot.holds_text shows_draft _ _,
      Slot.holds_items shows_draft fun formal _ => readFormal_toJson formal,
      Slot.holds_text shows_draft _ _, Slot.holds_required (readExpr_toJson body),
      Slot.holds_line shows_draft _⟩
  rw [readMethod, Method.toJson]
  refine (read_recordOf shows_draft holds
    (show ["name", "formals", "return_type", "body", "line"].Nodup by simp)).trans ?_
  cases line <;> rfl

theorem readFeature_toJson {feature : Feature} (inRange : feature.InRange) :
    readFeature (.ofJson feature.toJson) = .ok feature := by
  cases feature with
  | attr decl =>
    show (Feature.attr <$> readAttribute (.ofJson decl.toJson) >>= _) = _
    rw [readAttribute_toJson inRange.root]
    rfl
  | method decl =>
    show (Feature.method <$> readMethod (.ofJson decl.toJson) >>= _) = _
    rw [readMethod_toJson (inRange.root _ rfl)]
    rfl

theorem readClass_toJson {c : Class} (features : ∀ feature ∈ c.features, feature.InRange) :
    readClass (.ofJson c.toJson) = .ok c := by
  obtain ⟨name, parent, file, line, features'⟩ := c
  have holds : List.Forall (Slot.Holds Draft.ofJson) [.text "name" name,
      .textOrNull "parent" parent, .textOrNull "filename" file, .line line,
      .items .features readFeature Feature.toJson "features" features'] :=
    ⟨Slot.holds_text shows_draft _ _, Slot.holds_textOrNull shows_draft _ _,
      Slot.holds_textOrNull shows_draft _ _, Slot.holds_line shows_draft _,
      Slot.holds_items shows_draft fun feature mem => readFeature_toJson (features feature mem)⟩
  rw [readClass, Class.toJson]
  refine (read_recordOf shows_draft holds
    (show ["name", "parent", "filename", "line", "features"].Nodup by simp)).trans ?_
  cases parent <;> cases file <;> cases line <;> rfl

theorem readProgram_toJson {p : Program} (inRange : p.InRange) :
    readProgram (.ofJson p.toJson) = .ok p := by
  have holds : List.Forall (Slot.Holds Draft.ofJson)
      [.items .classes readClass Class.toJson "classes" p.classes] :=
    Slot.holds_items shows_draft fun c mem => readClass_toJson (inRange.features c mem)
  rw [readProgram, Program.toJson]
  exact (read_recordOf shows_draft holds (show ["classes"].Nodup by simp)).trans rfl

namespace Program

variable {p : Program}

/-- A program is read from every text whose value it is written as. -/
theorem ofText_of_parse? {text : List Char} (inRange : p.InRange)
    (parsed : Json.parse? text = some p.toJson) : ofText text = .ok p := by
  obtain ⟨rest, read, ended⟩ := Json.read_of_parse? parsed
  rw [ofText, read]
  simp only [readProgram_toJson inRange, bind, Except.bind, ended]
  rfl

/-- A text whose value is a program within the limit on expressions nests within the limit on
texts, and gives the program.

Where the limit on texts is the largest word there is, it has to be a text whose characters a word
can count. -/
theorem parse_of_parse? {levels : Nat} {text : String} (inRange : p.InRange)
    (nests : p.NestsWithin levels) (parsed : Json.parse? text.toList = some p.toJson)
    (fits : Json.nestingLimit levels < Json.maxWord ∨ text.length ≤ Json.maxWord) :
    Json.nestingDepth text.toList ≤ Json.nestingLimit levels ∧ parse text levels = .ok p := by
  have within : Json.nestingDepth text.toList ≤ Json.nestingLimit levels := by
    have depth := Json.nestingDepth_of_parse? parsed
    have shallow : p.toJson.depth ≤ 4 * (levels + 1) + 8 := Program.depth_toJson inRange nests
    have limit := Json.nestingLimit_eq levels
    have count : Json.nestingDepth text.toList ≤ text.length :=
      Json.nestingDepth_le_length text.toList
    omega
  refine ⟨within, ?_⟩
  rw [parse]
  simp only [if_neg (Nat.not_lt.mpr within), ofText_of_parse? inRange parsed]
  rfl

/-- **Every program whose expressions stay within the limit is read back from its text**: the
text nests no deeper than texts may, and reading it gives the program.

The numbers of the program have to be words.  Where the limit is the largest word there is, the
text must be one whose characters a word can count; below that nothing is asked of the text. -/
theorem parse_toText (levels : Nat) :
    Json.nestingLimit levels = min (4 * (levels + 1) + 8) (Nat.pow 2 64 - 1) ∧
      ∀ p : Program, p.InRange → p.NestsWithin levels →
        (Json.nestingLimit levels < Json.maxWord ∨ p.toText.length ≤ Json.maxWord) →
        Json.nestingDepth p.toText.toList ≤ Json.nestingLimit levels ∧
          parse p.toText levels = .ok p := by
  refine ⟨Json.nestingLimit_eq levels, fun p inRange nests fits => ?_⟩
  have parsed : Json.parse? p.toText.toList = some p.toJson := by
    rw [toText, Json.toText, String.toList_ofList, Json.parse?_render inRange.exact]
  exact parse_of_parse? inRange nests parsed fits

/-- An expression with a negative number, and with characters that are escaped. -/
def branchBody : Expr :=
  ⟨none, .binary .plus ⟨none, .int (-1)⟩ ⟨some 3, .string "a \"[\" and\n\x01"⟩⟩

/-- A program whose method takes a value apart. -/
def takesApart : Program :=
  ⟨[⟨"Main", none, some "apart.cl", some 1, [
    .attr ⟨"slot", "Int", none, none⟩,
    .method ⟨"main", [⟨"x", "Object", none⟩], "Int",
      ⟨none, .case ⟨none, .object "x"⟩ [⟨"y", "Int", branchBody, some 2⟩]⟩, none⟩]⟩]⟩

/-- The body of a branch is the deepest place of a program, and its text is read back. -/
theorem parse_toText_takesApart :
    takesApart.InRange ∧ takesApart.NestsWithin 2 ∧ Json.nestingLimit 2 < Json.maxWord ∧
      Json.nestingDepth takesApart.toText.toList ≤ 20 ∧
      parse takesApart.toText 2 = .ok takesApart := by
  have noLine : LineInRange none := nofun
  have line : ∀ number < 4, LineInRange (some number) := by
    rintro number small _ ⟨⟩
    exact Nat.lt_trans small (by decide)
  have integer : Expr.InRange ⟨none, .int (-1)⟩ :=
    .node noLine nofun (by rintro _ ⟨⟩; decide) nofun
  have text : Expr.InRange ⟨some 3, .string "a \"[\" and\n\x01"⟩ :=
    .node (line 3 (by decide)) nofun nofun nofun
  have body : Expr.InRange branchBody :=
    .node noLine nofun nofun (by simpa [branchBody, Form.children] using ⟨integer, text⟩)
  have object : Expr.InRange ⟨none, .object "x"⟩ := .node noLine nofun nofun nofun
  have cases : Expr.InRange ⟨none, .case ⟨none, .object "x"⟩ [⟨"y", "Int", branchBody, some 2⟩]⟩ :=
    .node noLine (by simpa [Form.branches] using line 2 (by decide)) nofun
      (by simpa [Form.children] using ⟨object, body⟩)
  have inRange : takesApart.InRange := by
    refine ⟨by simpa [takesApart] using line 1 (by decide), ?_⟩
    rintro c (_ | ⟨_, ⟨⟩⟩) feature (_ | ⟨_, _ | ⟨_, ⟨⟩⟩⟩)
    · exact ⟨noLine, nofun, nofun⟩
    · refine ⟨noLine, by simpa [Feature.formals] using noLine, ?_⟩
      rintro _ ⟨⟩
      exact cases
  have nests : takesApart.NestsWithin 2 := by
    simp [NestsWithin, takesApart, Feature.root?, Expr.NestsWithin, Form.children, branchBody]
  have limit : Json.nestingLimit 2 < Json.maxWord := by decide
  obtain ⟨depth, read⟩ := (parse_toText 2).2 takesApart inRange nests (.inl limit)
  exact ⟨inRange, nests, limit, depth, read⟩

end Program

end Source

end SelfTyped
