/-
SelfTyped.Proofs.LimitGuards — the nesting limit is only a guard.

A run that does not report the limit never came to it, so under a higher
limit the checker goes the same way through every expression: by
`infer_cuts` the parts of a quiet expression are quiet, and the rules do
not look at the limit (`sameRules_withLimit`).  From expressions this
passes to features, classes and programs.

The reader compares the nesting of the text with its limit before it looks
at anything else, so there it is enough that a higher limit on expressions
is no lower limit on texts (`nestingLimit_mono`).
-/
import SelfTyped.Proofs.JsonNesting
import SelfTyped.Proofs.NestingLimit
import SelfTyped.Proofs.ReadParts
import SelfTyped.Proofs.RoundTrip
import SelfTyped.Proofs.SameRules

namespace SelfTyped

/-! ## Expressions -/

namespace Setting

variable {g : Setting} {s : CheckState} {Γ : TypeEnv} {m : Nat}

/-- A setting with another nesting limit. -/
def withLimit (g : Setting) (m : Nat) : Setting :=
  { g with maxDepth := m }

theorem sameRules_withLimit (g : Setting) (m : Nat) : g.SameRules (g.withLimit m) :=
  ⟨rfl, fun _ => rfl, fun _ _ => rfl, fun _ _ => rfl, fun _ _ => rfl⟩

/-- A cut is always reported. -/
theorem cuts_cutOff (g : Setting) (s : CheckState) (e : Expr) :
    cuts (g.cutOff s e).findings ≠ [] := by
  simp [cutOff, report, cuts, TypeError.isCut]

/-- **An expression in which the limit is not reported has the same outcome under a higher
limit.** -/
theorem typeExpr_raise (raised : g.maxDepth ≤ m) (consistent : s.vars.Consistent) (e : Expr)
    (quiet : cuts (g.typeExpr s e).findings = []) :
    (g.withLimit m).typeExpr s e = g.typeExpr s e := by
  induction e using Expr.parts_induction generalizing s with
  | step line form ih =>
    rcases Nat.lt_or_ge s.depth g.maxDepth with deep | limit
    · have deep' : s.depth < (g.withLimit m).maxDepth := Nat.lt_of_lt_of_le deep raised
      have inside : s.deeper.vars.Consistent := consistent
      rw [typeExpr_of_lt deep, Inference.finish, infer_cuts inside, List.flatMap_eq_nil_iff]
        at quiet
      have parts : ∀ part ∈ form.parts,
          (g.withLimit m).partOutcome s.deeper part = g.partOutcome s.deeper part :=
        fun part mem => ih part mem (CheckState.consistent_under inside part.binder)
          (quiet part mem)
      rw [typeExpr_of_lt deep, typeExpr_of_lt deep',
        infer_congr (sameRules_withLimit g m) inside line parts]
    · rw [typeExpr, if_pos limit] at quiet
      exact absurd quiet (cuts_cutOff g s _)

theorem typeFeature_raise (raised : g.maxDepth ≤ m) (agrees : s.vars.Agrees Γ) (f : Feature)
    (quiet : cuts (g.typeFeature s f).findings = []) :
    (g.withLimit m).typeFeature s f = g.typeFeature s f := by
  rw [typeFeature_cuts] at quiet
  exact typeFeature_of_root (sameRules_withLimit g m) f
    (typeExpr_raise raised (featureState_consistent agrees f) f.root quiet)

end Setting

/-! ## Programs -/

namespace Program

variable {p : Program} {h : Hierarchy} {m m' : Nat} {c : Class} {f : Feature}

theorem outcome_raise (raised : m ≤ m') (quiet : cuts (outcome h m c f).findings = []) :
    outcome h m' c f = outcome h m c f :=
  Setting.typeFeature_raise (g := setting h m c) raised (classState_agrees h c) f quiet

/-- A feature of a program that does not report the limit does not report it either. -/
theorem outcome_cuts (quiet : cuts (p.typeIn h m).findings = []) (hc : c ∈ p.classes)
    (hf : f ∈ c.features) : cuts (outcome h m c f).findings = [] := by
  have stretch : (outcome h m c f).findings <:+: (p.typeIn h m).findings :=
    typeIn_findings_part hc hf
  exact List.infix_nil.mp (quiet ▸ stretch.filter _)

/-- A program that does not report the limit is typed alike under a higher limit. -/
theorem typeIn_raise (raised : m ≤ m') (quiet : cuts (p.typeIn h m).findings = []) :
    p.typeIn h m' = p.typeIn h m := by
  have features : ∀ c ∈ p.classes, ∀ f ∈ c.features, outcome h m' c f = outcome h m c f :=
    fun c hc f hf => outcome_raise raised (outcome_cuts quiet hc hf)
  have classes : (p.typeIn h m').classes = (p.typeIn h m).classes := by
    rw [typeIn_classes, typeIn_classes]
    refine List.map_congr_left fun c hc => congrArg (TypedClass.mk c) ?_
    exact List.map_congr_left fun f hf => by rw [features c hc f hf]
  have findings : (p.typeIn h m').findings = (p.typeIn h m).findings := by
    have inClass : ∀ c ∈ p.classes, classFindings h m' c = classFindings h m c := by
      intro c hc
      rw [classFindings, classFindings]
      exact congrArg _ (List.flatMap_congr fun f hf => by rw [features c hc f hf])
    rw [typeIn_findings, typeIn_findings, List.flatMap_congr inClass]
  exact Analysis.mk.injEq .. |>.mpr ⟨rfl, rfl, classes, findings⟩

/-- A program whose analysis does not report the limit has the same analysis under a higher
limit, or the same violation. -/
theorem analyse_raise (raised : m ≤ m')
    (quiet : ∀ a, p.analyse m = .ok a → cuts a.findings = []) :
    p.analyse m' = p.analyse m := by
  cases built : Hierarchy.build p with
  | error v => rw [analyse_eq_error_iff.mpr built, analyse_eq_error_iff.mpr built]
  | ok h =>
    have analysed : p.analyse m = .ok (p.typeIn h m) := analyse_of_build built
    rw [analysed, analyse_of_build built, typeIn_raise raised (quiet _ analysed)]

end Program

/-! ## Texts -/

theorem Json.nestingLimit_mono {m m' : Nat} (raised : m ≤ m') :
    nestingLimit m ≤ nestingLimit m' := by
  rw [nestingLimit_eq, nestingLimit_eq]
  omega

/-- A text is refused for its nesting exactly if it nests deeper than the limit. -/
theorem Source.Program.parse_tooDeep_iff {m limit : Nat} {text : String} :
    parse text m = .error (.tooDeep limit) ↔
      Json.nestingLimit m = limit ∧ limit < Json.nestingDepth text.toList := by
  unfold parse
  by_cases tooDeep : Json.nestingLimit m < Json.nestingDepth text.toList
  · rw [if_pos tooDeep, Except.error.injEq, ReadError.tooDeep.injEq]
    exact ⟨fun same => ⟨same, same ▸ tooDeep⟩, And.left⟩
  · rw [if_neg tooDeep]
    constructor
    · cases ofText text.toList <;> simp [Except.mapError]
    · rintro ⟨rfl, deeper⟩
      exact absurd deeper tooDeep

/-- A text that is not refused for its nesting is read alike under a higher limit. -/
theorem Source.Program.parse_raise {m m' : Nat} {text : String} (raised : m ≤ m')
    (shallow : ∀ limit, parse text m ≠ .error (.tooDeep limit)) :
    parse text m' = parse text m := by
  have limits := Json.nestingLimit_mono raised
  have within : ¬ Json.nestingLimit m < Json.nestingDepth text.toList :=
    fun tooDeep => shallow _ (parse_tooDeep_iff.mpr ⟨rfl, tooDeep⟩)
  unfold parse
  rw [if_neg within, if_neg (by omega)]

/-! ## The main statement -/

namespace Program

/-- **The nesting limit is only a guard.**  A program whose analysis does not report the limit has
under every higher limit the same analysis, types and findings included, and its check reports and
answers the same.  A text that is not refused for its nesting is read, or refused, alike under every
higher limit. -/
theorem limit_only_guards {m m' : Nat} (raised : m ≤ m') :
    (∀ p : Program,
      (∀ a, p.analyse m = .ok a → ∀ f ∈ a.findings, f.error.isCut = false) →
        p.analyse m' = p.analyse m ∧ ∀ sink, p.check m' sink = p.check m sink) ∧
      ∀ text, (∀ limit, Source.Program.parse text m ≠ .error (.tooDeep limit)) →
        Source.Program.parse text m' = Source.Program.parse text m := by
  refine ⟨fun p uncut => ?_, fun text shallow => Source.Program.parse_raise raised shallow⟩
  have quiet : ∀ a, p.analyse m = .ok a → cuts a.findings = [] := by
    intro a analysed
    rw [cuts, List.filter_eq_nil_iff]
    exact fun f mem => Bool.eq_false_iff.mp (uncut a analysed f mem)
  have same := analyse_raise raised quiet
  refine ⟨same, fun sink => ?_⟩
  rw [check, check, same]

/-- An expression with `case` expressions in each other, every one in the branch of the one around
it. -/
def nestedCases : Nat → Source.Expr
  | 0 => ⟨none, .complement ⟨none, .bool true⟩⟩
  | levels + 1 =>
    ⟨none, .case ⟨none, .object "x"⟩ [⟨"x", "Bool", nestedCases levels, none⟩]⟩

/-- A program with a method whose body is `nestedCases`. -/
def programWithCases (levels : Nat) : Source.Program :=
  ⟨[⟨"Main", none, none, none,
    [.method ⟨"main", [⟨"x", "Object", none⟩], "Bool", nestedCases levels, none⟩]⟩]⟩

theorem inRange_nestedCases (levels : Nat) : (nestedCases levels).InRange := by
  have unlined : Source.LineInRange none := nofun
  induction levels with
  | zero =>
    have literal : Source.Expr.InRange ⟨none, .bool true⟩ := .node unlined nofun nofun nofun
    refine .node unlined nofun nofun ?_
    simpa [nestedCases, Source.Form.children] using literal
  | succ levels ih =>
    have scrutinee : Source.Expr.InRange ⟨none, .object "x"⟩ := .node unlined nofun nofun nofun
    refine .node unlined ?_ nofun ?_
    · simpa [nestedCases, Source.Form.branches] using unlined
    · simpa [nestedCases, Source.Form.children] using ⟨scrutinee, ih⟩

theorem inRange_programWithCases (levels : Nat) : (programWithCases levels).InRange := by
  have unlined : Source.LineInRange none := nofun
  constructor
  · simpa [programWithCases] using unlined
  · rintro c (_ | ⟨_, ⟨⟩⟩) feature (_ | ⟨_, ⟨⟩⟩)
    refine ⟨unlined, by simpa [Source.Feature.formals] using unlined, ?_⟩
    rintro _ ⟨⟩
    exact inRange_nestedCases levels

/-- The body `nestedBody` has nodes down to depth 3 and stays below the limit 4.  The text of five
`case` expressions in each other nests 28 levels, which is all that this limit admits. -/
theorem limit_only_guards_unmet :
    4 ≤ 1000 ∧
      (∃ a, analyse ⟨[classWithNesting]⟩ 4 = .ok a ∧ a.findings = [] ∧
        analyse ⟨[classWithNesting]⟩ 1000 = .ok a) ∧
      Json.nestingDepth (programWithCases 5).toText.toList = 28 ∧ Json.nestingLimit 4 = 28 ∧
      Source.Program.parse (programWithCases 5).toText 4 = .ok (programWithCases 5) ∧
      Source.Program.parse (programWithCases 5).toText 1000 = .ok (programWithCases 5) := by
  have raised : 4 ≤ 1000 := by decide
  have wellFormed : Json.WellFormed (programWithCases 5).toText.toList
      (.ofJson (programWithCases 5).toJson) :=
    Json.wellFormed_toText (inRange_programWithCases 5).exact
  have nesting : Json.nestingDepth (programWithCases 5).toText.toList = 28 := by
    rw [wellFormed.nestingDepth, Json.Draft.depth_ofJson]
    decide +kernel
  have limit : Json.nestingLimit 4 = 28 := by decide
  have read : Source.Program.parse (programWithCases 5).toText 4 = .ok (programWithCases 5) :=
    Source.Program.parse_eq_ok_iff.mpr
      ⟨(nesting.trans limit.symm).le, _, wellFormed,
        Source.readProgram_toJson (inRange_programWithCases 5)⟩
  obtain ⟨programs, texts⟩ := limit_only_guards raised
  obtain ⟨a, analysed, silent⟩ :
      ∃ a, analyse ⟨[classWithNesting]⟩ 4 = .ok a ∧ a.findings = [] := ⟨_, rfl, rfl⟩
  obtain ⟨same, -⟩ := programs ⟨[classWithNesting]⟩ fun b analysed' f mem => by
    rw [analysed, Except.ok.injEq] at analysed'
    rw [← analysed', silent] at mem
    exact absurd mem List.not_mem_nil
  have readAlike := texts (programWithCases 5).toText fun limit tooDeep => by
    rw [read] at tooDeep
    cases tooDeep
  exact ⟨raised, ⟨a, analysed, silent, same.trans analysed⟩, nesting, limit, read,
    readAlike.trans read⟩

end Program

end SelfTyped
