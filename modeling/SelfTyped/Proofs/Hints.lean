/-
SelfTyped.Proofs.Hints — the suggestions in the messages of a run.

A message about a name that is no variable suggests one that is.  The
variables to choose from are listed by the index of the scopes, in the order
in which the index happens to hold them.  Here it is shown that the order
plays no part: a suggestion is determined by the variables in scope at the
node that is reported (`Undeclared`), and so a run reports the same whatever
the order (`HintLaws`).

`typeExpr_hint` goes down an expression and finds the node that a message
with a suggestion comes from, and `typeExpr_undeclared` comes back from such
a node.  No other error suggests anything (`Construct.Fault.undeclared?`), so
it is enough to look at two rules, those for variables and for assignments
(`Setting.undeclared_own`).
-/
import SelfTyped.Proofs.InternedSuggestions
import SelfTyped.Proofs.MethodLookup
import SelfTyped.Proofs.OwnFindings
import SelfTyped.Proofs.Redeclarations
import SelfTyped.Proofs.Runs
import SelfTyped.Proofs.SameRules

namespace SelfTyped

variable {Γ : TypeEnv} {vars : Variables} {name file : Name} {hint : Option Name} {f : Finding}
  {node : Expr}

/-! ## Reports at a node -/

/-- The error at an expression that refers to a variable which is not declared. -/
def Form.undeclared? : Form → Option Name → Option TypeError
  | .object name, hint => some (.undeclaredIdentifier name hint)
  | .assign name _, hint => some (.assignToUndeclared name hint)
  | _, _ => none

/-- The variable that an expression itself refers to. -/
def Form.variableName? : Form → Option Name
  | .object name | .assign name _ => some name
  | _ => none

/-- A list holds the names of the variables in scope, in any order and any number of times. -/
def TypeEnv.Lists (Γ : TypeEnv) (names : List Name) : Prop :=
  ∀ x, x ∈ names ↔ (Γ x).isSome = true

/-- A finding says that `name`, which an expression refers to, is no variable there, and suggests
what is to be suggested among the variables in scope. -/
structure Undeclared (file : Name) (Γ : TypeEnv) (node : Expr) (name : Name) (hint : Option Name)
    (f : Finding) : Prop where
  location : f.location = ⟨file, node.line⟩
  free : Γ name = none
  /-- Any list of the variables in scope leads to this error. -/
  error : ∀ names, Γ.Lists names →
    node.form.undeclared? (mostRelated name names) = some f.error
  /-- What is suggested is in scope. -/
  visible : ∀ candidate, hint = some candidate → (Γ candidate).isSome = true

theorem Variables.Agrees.lists_visible (agrees : vars.Agrees Γ) :
    Γ.Lists (Scoped.visible vars) := by
  intro x
  rw [Scoped.mem_visible_iff agrees.consistent, agrees.lookup]

theorem undeclared_of_free (agrees : vars.Agrees Γ) (free : Scoped.lookup vars name = none)
    {error : Option Name → TypeError} (reported : node.form.undeclared? = fun h => some (error h))
    (location : f.location = ⟨file, node.line⟩)
    (found : f.error = error (mostRelated name (Scoped.visible vars))) :
    Undeclared file Γ node name (mostRelated name (Scoped.visible vars)) f where
  location := location
  free := by rw [← agrees.lookup, free]
  error := by
    intro names lists
    rw [reported, found, Setting.mostRelated_visible agrees lists]
  visible := by
    intro candidate suggested
    rw [← agrees.lists_visible candidate]
    exact (mostRelated_eq_some.mp suggested).1

/-- Only about an expression that refers to a variable is there an error with a suggestion. -/
theorem Construct.Fault.undeclared? {construct : Construct} {line : Nat} {error : TypeError}
    (fault : construct.Fault line error) (hinted : error.hint? = some (name, hint)) :
    ∃ form, construct = .expr ⟨line, form⟩ ∧ form.undeclared? hint = some error := by
  cases fault with
  | expr line fault =>
    refine ⟨_, rfl, ?_⟩
    cases fault with
    | undeclared | assignToUndeclared =>
      cases hinted
      rfl
    | _ => cases hinted
  | _ => cases hinted

namespace Setting

variable {g : Setting} {s : CheckState} {line : Nat} {form : Form}

/-- A rule suggests something only if the variable that it looks up is not declared. -/
theorem undeclared_own (agrees : s.vars.Agrees Γ) (mem : f ∈ g.ownFindings s line form)
    (hinted : f.error.hint? = some (name, hint)) :
    Undeclared g.current.file Γ ⟨line, form⟩ name hint f := by
  rcases ownFindings_about mem with about | ⟨branch, -, about⟩
  · obtain ⟨_, same, refers⟩ := about.fault.undeclared? hinted
    cases same
    cases form with
    | object x =>
      rw [ownFindings, checkObject] at mem
      split at mem
      · exact absurd mem List.not_mem_nil
      · next free =>
        rw [List.mem_singleton.mp mem] at hinted ⊢
        cases hinted
        exact undeclared_of_free agrees free rfl rfl rfl
    | assign x value =>
      rw [ownFindings, checkAssign] at mem
      split at mem
      · rw [List.mem_singleton.mp mem] at hinted
        cases hinted
      · split at mem
        · next free =>
          rw [List.mem_singleton.mp mem] at hinted ⊢
          cases hinted
          exact undeclared_of_free agrees free rfl rfl rfl
        · split at mem
          · exact absurd mem List.not_mem_nil
          · rw [List.mem_singleton.mp mem] at hinted
            cases hinted
    | _ => cases refers
  · obtain ⟨_, same, -⟩ := about.fault.undeclared? hinted
    cases same

/-- A rule reports a name other than `self` that is not declared. -/
theorem own_undeclared (agrees : s.vars.Agrees Γ) (line : Nat)
    (refers : form.variableName? = some name) (notSelf : name ≠ Known.self) (free : Γ name = none) :
    ∃ f ∈ g.ownFindings s line form, ∃ hint,
      Undeclared g.current.file Γ ⟨line, form⟩ name hint f := by
  rw [← agrees.lookup] at free
  cases form with
  | object =>
    cases refers
    rw [ownFindings, checkObject, free]
    exact ⟨_, List.mem_singleton_self _, _, undeclared_of_free agrees free rfl rfl rfl⟩
  | assign =>
    cases refers
    rw [ownFindings, checkAssign, if_neg notSelf, free]
    exact ⟨_, List.mem_singleton_self _, _, undeclared_of_free agrees free rfl rfl rfl⟩
  | _ => cases refers

/-- **A message with a suggestion** is about a node that refers to a name not in scope there. -/
theorem typeExpr_hint (agrees : s.vars.Agrees Γ) {e : Expr}
    (mem : f ∈ (g.typeExpr s e).findings) (hinted : f.error.hint? = some (name, hint)) :
    ∃ path binders node, e.at? path = some (binders, node) ∧
      Undeclared g.current.file (Γ.bindAll binders) node name hint f := by
  induction e using Expr.parts_induction generalizing s Γ with
  | step line form ih =>
    rw [typeExpr] at mem
    split at mem
    · rw [List.mem_singleton.mp mem] at hinted
      cases hinted
    · have deeper : s.deeper.vars.Agrees Γ := agrees
      rcases (mem_infer_findings deeper.consistent).mp mem with own | ⟨part, hpart, inside⟩
      · exact ⟨[], [], _, rfl, undeclared_own deeper own hinted⟩
      · obtain ⟨i, hi⟩ := List.mem_iff_getElem?.mp hpart
        obtain ⟨path, inner, node, found, undeclared⟩ :=
          ih part hpart (agrees_under deeper part.binder) inside
        refine ⟨i :: path, _, node, Expr.at?_cons.mpr ⟨part, inner, hi, found, rfl⟩, ?_⟩
        rw [TypeEnv.bindAll_under]
        exact undeclared

/-- **A node above the nesting limit that refers to a name not in scope there is reported.** -/
theorem typeExpr_undeclared (agrees : s.vars.Agrees Γ) {e : Expr} {path : List Nat}
    {binders : List (Name × Name)} (found : e.at? path = some (binders, node))
    (shallow : s.depth + path.length < g.maxDepth) (refers : node.form.variableName? = some name)
    (notSelf : name ≠ Known.self) (free : Γ.bindAll binders name = none) :
    ∃ f ∈ (g.typeExpr s e).findings, ∃ hint,
      Undeclared g.current.file (Γ.bindAll binders) node name hint f := by
  obtain ⟨inside, agrees', depth, -, stretch⟩ := typeExpr_at agrees found shallow
  obtain ⟨line, form⟩ := node
  have deeper : inside.deeper.vars.Agrees (Γ.bindAll binders) := agrees'
  obtain ⟨f, own, undeclared⟩ := own_undeclared (g := g) deeper line refers notSelf free
  refine ⟨f, stretch.subset ?_, undeclared⟩
  rw [typeExpr_of_lt (by omega)]
  exact (mem_infer_findings deeper.consistent).mpr (Or.inl own)

end Setting

/-! ## `self` -/

theorem TypeEnv.bindAll_self (Γ : TypeEnv) (binders : List (Name × Name)) :
    Γ.bindAll binders Known.self = Γ Known.self := by
  induction binders generalizing Γ with
  | nil => rfl
  | cons binder rest ih =>
    refine (ih (Γ.bind binder.1 binder.2)).trans ?_
    rw [TypeEnv.bind]
    split
    · rfl
    · next notSelf => exact Function.update_of_ne (Ne.symm notSelf) _ _

/-- The name `self` is in scope at every node. -/
theorem TypeEnv.atNode_self (h : Hierarchy) (c : Class) (feature : Feature)
    (binders : List (Name × Name)) :
    TypeEnv.atNode h c feature binders Known.self = some Known.selfType := by
  have inClass : TypeEnv.ofClass h (ClassSignature.ofClass c) Known.self =
      some Known.selfType :=
    TypeEnv.withAttributes_of_some rfl (attributesInScope h (ClassSignature.ofClass c))
  rw [TypeEnv.atNode, TypeEnv.bindAll_self]
  cases feature with
  | attr => exact inClass
  | method =>
    rw [TypeEnv.ofFeature, TypeEnv.withFormals, if_pos rfl]
    exact inClass

/-! ## The order of the index -/

theorem Assoc.get?_eq_some_iff {α : Type} {map : Assoc α} (distinct : map.names.Nodup)
    {value : α} : map.get? name = some value ↔ (name, value) ∈ map := by
  refine ⟨Assoc.mem_of_get?, fun mem => ?_⟩
  induction map with
  | nil => exact absurd mem List.not_mem_nil
  | cons entry rest ih =>
    obtain ⟨key, other⟩ := entry
    rw [Assoc.names, List.map_cons, List.nodup_cons] at distinct
    rcases List.mem_cons.mp mem with here | later
    · cases here
      simp [Assoc.get?]
    · have differs : key ≠ name := by
        rintro rfl
        exact distinct.1 (List.mem_map.mpr ⟨_, later, rfl⟩)
      rw [Assoc.get?, if_neg differs]
      exact ih distinct.2 later

/-- The order of the entries shows in no value. -/
theorem Assoc.get?_perm {α : Type} {map map' : Assoc α} (distinct : map.names.Nodup)
    (perm : map'.Perm map) (name : Name) : map'.get? name = map.get? name := by
  have distinct' : map'.names.Nodup := (perm.map Prod.fst).nodup_iff.mpr distinct
  ext value
  rw [Assoc.get?_eq_some_iff distinct', Assoc.get?_eq_some_iff distinct, perm.mem_iff]

/-- The same state with other entries in the index. -/
def CheckState.withIndex (s : CheckState) (index : Assoc (List Nat)) : CheckState :=
  { s with vars := { s.vars with index } }

/-- The index may hold its entries in any order. -/
theorem agrees_withIndex {s : CheckState} (agrees : s.vars.Agrees Γ) {index : Assoc (List Nat)}
    (perm : index.Perm s.vars.index) : (s.withIndex index).vars.Agrees Γ := by
  have same := Assoc.get?_perm agrees.consistent.distinct perm
  constructor
  · constructor
    · exact (perm.map Prod.fst).nodup_iff.mpr agrees.consistent.distinct
    · exact fun entry mem => agrees.consistent.noEmpty entry (perm.mem_iff.mp mem)
    · intro name
      exact (congrArg (Option.getD · []) (same name)).trans (agrees.consistent.numbers name)
  · intro name
    rw [← agrees.lookup, Scoped.lookup, Scoped.lookup]
    exact congrArg (Option.bind · _) (same name)

namespace Program

variable {p : Program} {h : Hierarchy} {m : Nat}

/-! ## Runs -/

/-- What holds of the suggestions in the messages of a run. -/
structure HintLaws (p : Program) (h : Hierarchy) (m : Nat) (a : Analysis) : Prop where
  /-- A message with a suggestion is about a node of the class in whose file it is, and about a name
  that is not in scope at the node.  The suggestion is the same in whatever way the variables in
  scope there are listed, and it is one of them. -/
  reported : ∀ f ∈ a.findings, ∀ {name hint}, f.error.hint? = some (name, hint) →
    ∃ c ∈ p.classes, ∃ feature ∈ c.features, ∃ path binders node,
      feature.root.at? path = some (binders, node) ∧
        Undeclared c.file (TypeEnv.atNode h c feature binders) node name hint f
  /-- The message ends with the name and the suggestion. -/
  suggested : ∀ f ∈ a.findings, ∀ {name candidate}, f.error.hint? = some (name, some candidate) →
    ∃ front, f.diagnostic.message =
      front ++ name ++ "." ++ (" Did you mean '" ++ candidate ++ "'?")
  /-- Without a suggestion it ends with the name. -/
  unsuggested : ∀ f ∈ a.findings, ∀ {name}, f.error.hint? = some (name, none) →
    ∃ front, f.diagnostic.message = front ++ name ++ "."
  /-- Every node above the nesting limit that refers to a name not in scope there is reported
  so. -/
  complete : ∀ c ∈ p.classes, ∀ feature ∈ c.features, ∀ {path binders node name},
    feature.root.at? path = some (binders, node) → path.length < m →
    node.form.variableName? = some name → TypeEnv.atNode h c feature binders name = none →
    ∃ f ∈ a.findings, ∃ hint,
      Undeclared c.file (TypeEnv.atNode h c feature binders) node name hint f
  /-- Whatever the order of the entries in the index when the features of a class are checked, the
  same is found, message by message. -/
  order : ∀ c ∈ p.classes, ∀ index, index.Perm (classState h c).vars.index →
    ((setting h m c).typeFeatures ((classState h c).withIndex index) c.features).findings =
      ((setting h m c).typeFeatures (classState h c) c.features).findings
  /-- So it is in whatever scopes the same variables are kept, at every expression. -/
  scopes : ∀ c ∈ p.classes, ∀ {Γ : TypeEnv} {s t : CheckState}, s.vars.Agrees Γ →
    t.vars.Agrees Γ → t.depth = s.depth → ∀ e,
    ((setting h m c).typeExpr t e).findings = ((setting h m c).typeExpr s e).findings

/-- The declarations of methods suggest nothing. -/
theorem hint?_build (built : Hierarchy.build p = .ok h) (mem : f ∈ (MethodTable.build h).2) :
    f.error.hint? = none := by
  have owned := build_owned built
  rw [MethodTable.build_redeclarations (Hierarchy.build_rooted built) owned] at mem
  obtain ⟨c, hc, found⟩ := List.mem_flatMap.mp mem
  rw [MethodTable.ofClass_reported (owned c hc)] at found
  obtain ⟨method, -, rfl⟩ := List.mem_map.mp found
  rfl

/-- The attributes of a class suggest nothing. -/
theorem hint?_ofClass {c : ClassSignature} (mem : f ∈ (Variables.ofClass h c).2) :
    f.error.hint? = none := by
  rw [Variables.ofClass_reported] at mem
  obtain ⟨a, -, rfl⟩ := List.mem_map.mp mem
  rfl

theorem outcome_hint {c : Class} {feature : Feature}
    (mem : f ∈ (outcome h m c feature).findings) (hinted : f.error.hint? = some (name, hint)) :
    ∃ path binders node, feature.root.at? path = some (binders, node) ∧
      Undeclared c.file (TypeEnv.atNode h c feature binders) node name hint f := by
  rcases Setting.mem_typeFeature_findings mem with inside | about | ⟨formal, -, about⟩
  · have agrees := Setting.featureState_agrees (g := setting h m c) (classState_agrees h c) feature
    exact Setting.typeExpr_hint agrees inside hinted
  · obtain ⟨_, same, -⟩ := about.fault.undeclared? hinted
    cases same
  · obtain ⟨_, same, -⟩ := about.fault.undeclared? hinted
    cases same

theorem typeIn_hint (built : Hierarchy.build p = .ok h) (mem : f ∈ (p.typeIn h m).findings)
    (hinted : f.error.hint? = some (name, hint)) :
    ∃ c ∈ p.classes, ∃ feature ∈ c.features, ∃ path binders node,
      feature.root.at? path = some (binders, node) ∧
        Undeclared c.file (TypeEnv.atNode h c feature binders) node name hint f := by
  rw [typeIn_findings, List.mem_append] at mem
  rcases mem with methods | inClasses
  · rw [hint?_build built methods] at hinted
    cases hinted
  · obtain ⟨c, hc, inClass⟩ := List.mem_flatMap.mp inClasses
    rw [classFindings, List.mem_append] at inClass
    rcases inClass with attributes | inFeatures
    · rw [hint?_ofClass attributes] at hinted
      cases hinted
    · obtain ⟨feature, hf, inFeature⟩ := List.mem_flatMap.mp inFeatures
      exact ⟨c, hc, feature, hf, outcome_hint inFeature hinted⟩

theorem typeIn_undeclared {c : Class} {feature : Feature} {path : List Nat}
    {binders : List (Name × Name)} (hc : c ∈ p.classes) (hf : feature ∈ c.features)
    (found : feature.root.at? path = some (binders, node)) (shallow : path.length < m)
    (refers : node.form.variableName? = some name)
    (free : TypeEnv.atNode h c feature binders name = none) :
    ∃ f ∈ (p.typeIn h m).findings, ∃ hint,
      Undeclared c.file (TypeEnv.atNode h c feature binders) node name hint f := by
  have agrees := classState_agrees h c
  have root := Setting.featureState_agrees (g := setting h m c) agrees feature
  have depth := Setting.featureState_depth (g := setting h m c) agrees feature
  have notSelf : name ≠ Known.self := by
    rintro rfl
    rw [TypeEnv.atNode_self] at free
    cases free
  have deep : ((setting h m c).featureState (classState h c) feature).depth + path.length < m := by
    rw [depth]
    exact (Nat.zero_add path.length).trans_lt shallow
  obtain ⟨f, mem, undeclared⟩ :=
    Setting.typeExpr_undeclared (g := setting h m c) root found deep refers notSelf free
  have inFeature := (Setting.typeFeature_findings_part (setting h m c) (classState h c)
    feature).subset mem
  exact ⟨f, (typeIn_findings_part hc hf).subset inFeature, undeclared⟩

theorem hintLaws (built : Hierarchy.build p = .ok h) (m : Nat) :
    HintLaws p h m (p.typeIn h m) where
  reported := by
    intro f mem name hint hinted
    exact typeIn_hint built mem hinted
  suggested := by
    intro f _ name candidate hinted
    obtain ⟨front, message⟩ := TypeError.message_of_hint hinted
    rw [hintText_some] at message
    exact ⟨front, message⟩
  unsuggested := by
    intro f _ name hinted
    obtain ⟨front, message⟩ := TypeError.message_of_hint hinted
    rw [hintText_none, String.append_empty] at message
    exact ⟨front, message⟩
  complete := by
    intro c hc feature hf path binders node name found shallow refers free
    exact typeIn_undeclared hc hf found shallow refers free
  order := by
    intro c _ index perm
    have agrees := classState_agrees h c
    rw [Setting.typeFeatures_agrees agrees (agrees_withIndex agrees perm) rfl]
  scopes := by
    intro c _ Γ s t agrees agrees' depth e
    rw [Setting.typeExpr_agrees (Setting.SameRules.refl _) rfl agrees agrees' depth]

/-- **Hints are canonical.**  Among symbols of one table the closest one is suggested, and of
equally close ones the one whose text comes first, however they are listed.  So the messages of a
run do not hang on the order in which the variables in scope are listed, and what they suggest is in
scope at the node that they are about. -/
theorem hints_canonical {table : NameTable} {symbol : Symbol} {candidates : List Symbol}
    (known : ∀ s ∈ symbol :: candidates, table.lookup? s.text = some s)
    (built : Hierarchy.build p = .ok h) (m : Nat) :
    Interned.SuggestionLaws symbol candidates ∧
      ∃ a, p.analyse m = .ok a ∧ HintLaws p h m a :=
  ⟨Interned.suggestionLaws known, _, analyse_of_build built, hintLaws built m⟩

/-- A misspelt name and names that may have been meant. -/
def misspelt : NameTable :=
  NameTable.initial.internAll ["coun", "count", "noun", "con", "amount"]

/-- The symbols of `misspelt`, one of them twice. -/
def meantSymbols : List Symbol :=
  [⟨6, "amount"⟩, ⟨4, "noun"⟩, ⟨3, "count"⟩, ⟨2, "coun"⟩, ⟨5, "con"⟩, ⟨3, "count"⟩]

/-- The misspelt name stands inside the scope of a variable, and again after it. -/
def misspellingBody : Expr :=
  ⟨3, .block
    [⟨4, .letIn "con" "Int" ⟨4, .noExpr⟩ ⟨5, .object "coun"⟩⟩,
      ⟨6, .assign "coun" ⟨6, .int 1⟩⟩]⟩

/-- A class with an attribute whose name is misspelt. -/
def misspellingClass : Class :=
  ⟨1, "Main", "Object", "main.cl",
    [.attr ⟨2, "count", "Int", ⟨2, .noExpr⟩⟩, .method ⟨3, "main", [], "Object", misspellingBody⟩]⟩

/-- Three candidates are one edit away from the misspelt name, and the first of them is suggested.
Where it is not in scope any more, the next one is. -/
theorem hints_canonical_misspelt :
    (∀ s ∈ Symbol.mk 2 "coun" :: meantSymbols, misspelt.lookup? s.text = some s) ∧
      Interned.SuggestionLaws ⟨2, "coun"⟩ meantSymbols ∧
      Interned.mostRelated ⟨2, "coun"⟩ meantSymbols = some ⟨5, "con"⟩ ∧
      ∃ a, analyse ⟨[misspellingClass]⟩ 1000 = .ok a ∧
        a.findings = [⟨⟨"main.cl", 5⟩, .undeclaredIdentifier "coun" (some "con")⟩,
          ⟨⟨"main.cl", 6⟩, .assignToUndeclared "coun" (some "count")⟩] ∧
        HintLaws ⟨[misspellingClass]⟩ (declared ⟨[misspellingClass]⟩) 1000 a := by
  have built : Hierarchy.build ⟨[misspellingClass]⟩ = .ok (declared ⟨[misspellingClass]⟩) := rfl
  have known : ∀ s ∈ Symbol.mk 2 "coun" :: meantSymbols, misspelt.lookup? s.text = some s := by
    simp only [meantSymbols, List.forall_mem_cons]
    exact ⟨rfl, rfl, rfl, rfl, rfl, rfl, rfl, nofun⟩
  obtain ⟨suggested, a, analysed, laws⟩ := hints_canonical known built 1000
  refine ⟨known, suggested, rfl, a, analysed, ?_, laws⟩
  have same := Except.ok.inj ((analyse_of_build built).symm.trans analysed)
  rw [← same]
  rfl

end Program

end SelfTyped
