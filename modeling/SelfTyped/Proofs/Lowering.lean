/-
SelfTyped.Proofs.Lowering — lowering is entering the names, in order.

A step of lowering reads the table only to find out which symbols texts
have, and no text loses its symbol.  So what a step gives can be told from
the table that all of lowering ends with: the program is the one with names
in place, each name replaced by the symbol that it has in the end, and the
table is the one that the names of the source program are entered in, one
after the other.  `Enters` says this of a step, and is kept when steps
follow one another.
-/
import SelfTyped.Interned.Lowering
import SelfTyped.Proofs.Interning
import SelfTyped.Proofs.LineInheritance

namespace SelfTyped

/-! ## Tables -/

namespace NameTable

variable {table : NameTable} {text : Name} {symbol : Symbol}

/-- Entering texts one after the other is a sequence of calls. -/
theorem internAll_eq_after (table : NameTable) (texts : List Name) :
    table.internAll texts = interner.after table (texts.map fun text => .intern ⟨0, text⟩) := by
  induction texts generalizing table with
  | nil => rfl
  | cons text texts ih => exact ih (table.intern text).2

/-- No text loses its symbol when others are entered. -/
theorem lookup?_internAll (found : table.lookup? text = some symbol) (texts : List Name) :
    (table.internAll texts).lookup? text = some symbol := by
  rw [internAll_eq_after]
  exact correct.lookup?_after found _

theorem internAll_append (table : NameTable) (texts others : List Name) :
    table.internAll (texts ++ others) = (table.internAll texts).internAll others :=
  List.foldl_append

/-- Every text of a table is given the symbol that it has there. -/
def Spelled (symbolOf : Name → Symbol) (table : NameTable) : Prop :=
  ∀ text symbol, table.lookup? text = some symbol → symbolOf text = symbol

theorem Spelled.before {symbolOf : Name → Symbol} {texts : List Name}
    (spelled : Spelled symbolOf (table.internAll texts)) : Spelled symbolOf table :=
  fun text symbol found => spelled text symbol (lookup?_internAll found texts)

end NameTable

namespace Interned

open NameTable (Spelled)

variable {α β : Type} {symbolOf : Name → Symbol}

/-! ## Steps -/

/-- A step that enters these texts and gives this value, whatever table it starts from, if texts
have the symbols that they are found under in the end. -/
def Enters (symbolOf : Name → Symbol) (texts : List Name) (step : Entering α) (value : α) : Prop :=
  ∀ table : NameTable, Spelled symbolOf (table.internAll texts) →
    step.run table = (value, table.internAll texts)

theorem Enters.pure (value : α) : Enters symbolOf [] (pure value) value :=
  fun _ _ => rfl

theorem Enters.enter (text : Name) : Enters symbolOf [text] (enter text) (symbolOf text) := by
  intro table spelled
  have found := NameTable.correct.lookup?_intern_self table ⟨0, text⟩
  show table.intern text = (symbolOf text, (table.intern text).2)
  rw [spelled text _ found]
  rfl

/-- Steps enter their texts one after the other. -/
theorem Enters.bind {texts others : List Name} {step : Entering α} {a : α}
    {next : α → Entering β} {b : β} (first : Enters symbolOf texts step a)
    (second : Enters symbolOf others (next a) b) :
    Enters symbolOf (texts ++ others) (step >>= next) b := by
  intro table spelled
  rw [NameTable.internAll_append] at spelled ⊢
  rw [StateT.run_bind, first table spelled.before]
  exact second _ spelled

/-- What is done with a value enters nothing more. -/
theorem Enters.map {texts : List Name} {step : Entering α} {a : α}
    (first : Enters symbolOf texts step a) (f : α → β) :
    Enters symbolOf texts (step >>= fun value => Pure.pure (f value)) (f a) := by
  have both : Enters symbolOf (texts ++ []) (step >>= fun value => Pure.pure (f value)) (f a) :=
    first.bind (Enters.pure (f a))
  rwa [List.append_nil] at both

theorem Enters.mapM {γ : Type} {step : γ → Entering α} {texts : γ → List Name} {value : γ → α}
    (each : ∀ c, Enters symbolOf (texts c) (step c) (value c)) :
    ∀ items : List γ,
      Enters symbolOf (items.flatMap texts) (items.mapM step) (items.map value)
  | [] => Enters.pure []
  | item :: rest => by
    rw [List.mapM_cons]
    exact (each item).bind ((Enters.mapM each rest).map _)

/-! ## Expressions -/

section

variable (symbolOf : Name → Symbol) (file : String)

/-- The symbols for what is left out of a program from the file `file`. -/
def defaults : Defaults :=
  ⟨symbolOf Known.object, symbolOf Known.self, symbolOf file⟩

mutual

theorem Expr.enters (around : Nat) (e : Source.Expr) :
    Enters symbolOf e.names (Expr.lower (defaults symbolOf file) around e)
      (Expr.ofNames symbolOf (.ofSource around e)) := by
  obtain ⟨line, form⟩ := e
  exact (Form.enters (line.getD around) form).map _

theorem Form.enters (line : Nat) : ∀ form : Source.Form,
    Enters symbolOf form.names (Form.lower (defaults symbolOf file) line form)
      (Form.ofNames symbolOf (.ofSource line form))
  | .int _ | .bool _ | .noExpr => .pure _
  | .string value => (Enters.enter value).map _
  | .object name => (Enters.enter name).map _
  | .assign name value => (Enters.enter name).bind ((Expr.enters line value).map _)
  | .dispatch none method args => (Enters.enter method).bind ((lowerItems_enters line args).map _)
  | .dispatch (some receiver) method args =>
    (Expr.enters line receiver).bind
      ((Enters.enter method).bind ((lowerItems_enters line args).map _))
  | .staticDispatch none type method args =>
    (Enters.enter type).bind ((Enters.enter method).bind ((lowerItems_enters line args).map _))
  | .staticDispatch (some receiver) type method args =>
    (Expr.enters line receiver).bind
      ((Enters.enter type).bind ((Enters.enter method).bind ((lowerItems_enters line args).map _)))
  | .cond predicate thenArm elseArm =>
    (Expr.enters line predicate).bind
      ((Expr.enters line thenArm).bind ((Expr.enters line elseArm).map _))
  | .loop condition body => (Expr.enters line condition).bind ((Expr.enters line body).map _)
  | .case scrutinee branches =>
    (Expr.enters line scrutinee).bind ((lowerBranches_enters line branches).map _)
  | .block items => (lowerItems_enters line items).map _
  | .letIn name type none body =>
    (Enters.enter name).bind ((Enters.enter type).bind ((Expr.enters line body).map _))
  | .letIn name type (some init) body =>
    (Enters.enter name).bind
      ((Enters.enter type).bind ((Expr.enters line init).bind ((Expr.enters line body).map _)))
  | .binary _ left right => (Expr.enters line left).bind ((Expr.enters line right).map _)
  | .negate operand => (Expr.enters line operand).map _
  | .complement operand => (Expr.enters line operand).map _
  | .new type => (Enters.enter type).map _
  | .isVoid operand => (Expr.enters line operand).map _

theorem lowerItems_enters (line : Nat) : ∀ items : List Source.Expr,
    Enters symbolOf (Source.namesOfItems items) (lowerItems (defaults symbolOf file) line items)
      (itemsOfNames symbolOf (itemsOfSource line items))
  | [] => .pure _
  | item :: rest => (Expr.enters line item).bind ((lowerItems_enters line rest).map _)

theorem lowerBranches_enters (line : Nat) : ∀ branches : List Source.Branch,
    Enters symbolOf (Source.namesOfBranches branches)
      (lowerBranches (defaults symbolOf file) line branches)
      (branchesOfNames symbolOf (branchesOfSource line branches))
  | [] => .pure _
  | ⟨name, type, body, own⟩ :: rest =>
    (Enters.enter name).bind
      ((Enters.enter type).bind
        ((Expr.enters (own.getD line) body).bind ((lowerBranches_enters line rest).map _)))

end

/-! ## Declarations -/

theorem Formal.enters (line : Nat) (formal : Source.Formal) :
    Enters symbolOf formal.names (Formal.lower line formal)
      (Formal.ofNames symbolOf (.ofSource line formal)) :=
  (Enters.enter formal.name).bind ((Enters.enter formal.type).map _)

theorem lowerInit_enters (line : Nat) (init : Option Source.Expr) :
    Enters symbolOf ((init.map Source.Expr.names).getD [])
      (lowerInit (defaults symbolOf file) line init)
      (Expr.ofNames symbolOf
        (match init with
        | some init => .ofSource line init
        | none => ⟨line, .noExpr⟩)) := by
  cases init with
  | none => exact .pure _
  | some init => exact Expr.enters symbolOf file line init

theorem Attribute.enters (around : Nat) (decl : Source.Attribute) :
    Enters symbolOf (Source.Feature.attr decl).names
      (Attribute.lower (defaults symbolOf file) around decl)
      (Attribute.ofNames symbolOf (.ofSource around decl)) :=
  (lowerInit_enters symbolOf file _ decl.init).bind
    ((Enters.enter decl.name).bind ((Enters.enter decl.type).map _))

theorem Method.enters (around : Nat) (method : Source.Method) :
    Enters symbolOf (Source.Feature.method method).names
      (Method.lower (defaults symbolOf file) around method)
      (Method.ofNames symbolOf (.ofSource around method)) := by
  have formals := Enters.mapM (Formal.enters symbolOf (method.line.getD around)) method.formals
  have body := Expr.enters symbolOf file (method.line.getD around) method.body
  rw [Source.Feature.names, List.append_assoc, Method.ofNames, Method.ofSource, List.map_map]
  exact formals.bind ((Enters.enter method.name).bind
    ((Enters.enter method.returnType).bind (body.map _)))

theorem Feature.enters (around : Nat) (feature : Source.Feature) :
    Enters symbolOf feature.names (Feature.lower (defaults symbolOf file) around feature)
      (Feature.ofNames symbolOf (.ofSource around feature)) := by
  cases feature with
  | attr decl => exact (Attribute.enters symbolOf file around decl).map _
  | method decl => exact (Method.enters symbolOf file around decl).map _

theorem enterOr_enters (default : Name) (text : Option Name) :
    Enters symbolOf text.toList (enterOr (symbolOf default) text)
      (symbolOf (text.getD default)) := by
  cases text with
  | none => exact .pure _
  | some text => exact .enter text

theorem Class.enters (source : Source.Class) :
    Enters symbolOf source.names (Class.lower (defaults symbolOf file) source)
      (Class.ofNames symbolOf (.ofSource file source)) := by
  have features := Enters.mapM
    (Feature.enters symbolOf file (source.line.getD Class.defaultLine)) source.features
  rw [Source.Class.names, List.append_assoc, List.append_assoc, Class.ofNames, Class.ofSource,
    List.map_map]
  exact (Enters.enter source.name).bind
    ((enterOr_enters symbolOf Known.object source.parent).bind
      ((enterOr_enters symbolOf file source.file).bind (features.map _)))

/-- **Lowering enters the names of a source program and replaces them by their symbols.**  The
table that lowering ends with is the one that all names are entered in, and the program is the one
with names in place, for any choice of symbols that gives the texts of that table their own. -/
theorem Program.lower?_eq (source : Source.Program) {table : NameTable}
    (knowsSelf : Known.self ∈ table.entries)
    (spelled : Spelled symbolOf (table.internProgram file source)) :
    Program.lower? file source table =
      some (Program.ofNames symbolOf (.ofSource file source),
        table.internProgram file source) := by
  let withObject := table.internAll [Known.object]
  let withFile := withObject.internAll [file]
  have spelledAll : Spelled symbolOf (withFile.internAll source.names) := spelled
  have spelledFile : Spelled symbolOf withFile := spelledAll.before
  have spelledObject : Spelled symbolOf withObject := spelledFile.before
  have object : table.intern Known.object = (symbolOf Known.object, withObject) :=
    Enters.enter Known.object table spelledObject
  have self : withObject.self? = some (symbolOf Known.self) := by
    have known := (NameTable.correct.found_iff table Known.self).mpr knowsSelf
    obtain ⟨symbol, found⟩ := Option.isSome_iff_exists.mp known
    have later := NameTable.lookup?_internAll found [Known.object]
    rw [spelledObject _ _ later]
    exact later
  have default : withObject.intern file = (symbolOf file, withFile) :=
    Enters.enter file withObject spelledFile
  have classes := Enters.mapM (Class.enters symbolOf file) source.classes withFile spelled
  unfold Program.lower?
  simp only [object, self, default, Option.bind_eq_bind, Option.bind_some]
  rw [show (⟨symbolOf Known.object, symbolOf Known.self, symbolOf file⟩ : Defaults) =
    defaults symbolOf file from rfl, classes, Program.ofNames, Program.ofSource, List.map_map]
  rfl

end

end Interned

end SelfTyped
