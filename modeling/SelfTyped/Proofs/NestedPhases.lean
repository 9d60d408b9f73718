/-
SelfTyped.Proofs.NestedPhases — when a report shows how phases were nested.

A report sees spans only, in the order in which phases were closed.  How
the phases were nested has to be read off the clock.  A clock that never
goes back may show the same time twice, and then the report can be wrong:
of two phases that start at the same time the inner one, which is closed
first, is listed first, and a phase that starts at the time at which the
outer one stops is not counted as inside it.

`reportOn_exact` says that nothing else goes wrong.  If every phase inside
another one starts later than that one and earlier than that one stops
(`Separates`), the report is the outline of the phases, whatever other
readings coincide; and for phases with different labels it is the outline
in no other case.
-/
import Mathlib.Data.List.Permutation
import Mathlib.Order.Monotone.Basic
import SelfTyped.Proofs.PhaseReports
import SelfTyped.Timing.Nesting

namespace SelfTyped

namespace Timing

variable {clock : Clock} {tick depth : Nat} {phase : Nested} {phases : List Nested}
  {earlier : List Span}

/-! ## Spans in the order of opening -/

/-- The span of a phase that is opened at the reading `tick`. -/
def Nested.span (clock : Clock) (tick : Nat) : Nested → Span
  | .phase label inside => ⟨label, clock tick, clock (runAll clock (tick + 1) inside).2⟩

mutual

/-- The spans of a phase and of those inside it, in the order of opening. -/
def Nested.opened (clock : Clock) (tick : Nat) : Nested → List Span
  | .phase label inside =>
    Nested.span clock tick (.phase label inside) :: openedAll clock (tick + 1) inside

/-- The spans of phases that run one after the other, in the order of opening. -/
def openedAll (clock : Clock) (tick : Nat) : List Nested → List Span
  | [] => []
  | phase :: rest =>
    phase.opened clock tick ++ openedAll clock (phase.run clock tick).2 rest

end

mutual

/-- Every phase with every phase inside it, as pairs of spans. -/
def Nested.enclosures (clock : Clock) (tick : Nat) : Nested → List (Span × Span)
  | .phase label inside =>
    (openedAll clock (tick + 1) inside).map
        (fun inner => (Nested.span clock tick (.phase label inside), inner)) ++
      enclosuresAll clock (tick + 1) inside

/-- The pairs of phases that run one after the other. -/
def enclosuresAll (clock : Clock) (tick : Nat) : List Nested → List (Span × Span)
  | [] => []
  | phase :: rest =>
    phase.enclosures clock tick ++ enclosuresAll clock (phase.run clock tick).2 rest

end

/-- Every phase inside another one starts later than that one, and earlier than that one stops. -/
def Clock.Separates (clock : Clock) (phases : List Nested) : Prop :=
  ∀ pair ∈ enclosuresAll clock 0 phases,
    pair.1.start < pair.2.start ∧ pair.2.start < pair.1.stop

instance (clock : Clock) (phases : List Nested) : Decidable (clock.Separates phases) :=
  inferInstanceAs (Decidable (∀ pair ∈ _, _))

/-- A line of a report without its time. -/
def Phase.entry (p : Phase) : String × Nat :=
  (p.label, p.depth)

/-! ## Readings -/

mutual

theorem Nested.le_run (clock : Clock) (tick : Nat) : ∀ phase : Nested,
    tick < (phase.run clock tick).2
  | .phase label inside => by
    have := le_runAll clock (tick + 1) inside
    simp only [Nested.run]
    omega

theorem le_runAll (clock : Clock) (tick : Nat) : ∀ phases : List Nested,
    tick ≤ (runAll clock tick phases).2
  | [] => Nat.le_refl tick
  | phase :: rest => by
    have := phase.le_run clock tick
    have := le_runAll clock (phase.run clock tick).2 rest
    simp only [runAll]
    omega

end

/-- A span that lies between two times. -/
def Span.Within (s : Span) (first last : Nat) : Prop :=
  first ≤ s.start ∧ s.start ≤ s.stop ∧ s.stop ≤ last

mutual

/-- The spans of a phase lie between its first reading and the next one after it. -/
theorem Nested.opened_within (mono : Monotone clock) (tick : Nat) : ∀ phase : Nested,
    ∀ s ∈ phase.opened clock tick, s.Within (clock tick) (clock (phase.run clock tick).2)
  | .phase label inside => by
    have ticks := le_runAll clock (tick + 1) inside
    have first : clock tick ≤ clock (tick + 1) := mono (Nat.le_succ tick)
    have last : clock (runAll clock (tick + 1) inside).2 ≤
        clock ((runAll clock (tick + 1) inside).2 + 1) := mono (Nat.le_succ _)
    intro s mem
    rw [Nested.opened, List.mem_cons] at mem
    simp only [Nested.run]
    rcases mem with rfl | mem
    · exact ⟨Nat.le_refl _, mono (by omega), last⟩
    · obtain ⟨start, ordered, stop⟩ := openedAll_within mono (tick + 1) inside s mem
      exact ⟨first.trans start, ordered, stop.trans last⟩

theorem openedAll_within (mono : Monotone clock) (tick : Nat) : ∀ phases : List Nested,
    ∀ s ∈ openedAll clock tick phases, s.Within (clock tick) (clock (runAll clock tick phases).2)
  | [] => by simp [openedAll]
  | phase :: rest => by
    have ticks := phase.le_run clock tick
    have ticks' := le_runAll clock (phase.run clock tick).2 rest
    intro s mem
    rw [openedAll, List.mem_append] at mem
    simp only [runAll]
    rcases mem with mem | mem
    · obtain ⟨start, ordered, stop⟩ := phase.opened_within mono tick s mem
      exact ⟨start, ordered, stop.trans (mono ticks')⟩
    · obtain ⟨start, ordered, stop⟩ := openedAll_within mono _ rest s mem
      exact ⟨(mono ticks.le).trans start, ordered, stop⟩

end

mutual

/-- Phases are opened in the order of their starts. -/
theorem Nested.opened_ordered (mono : Monotone clock) (tick : Nat) : ∀ phase : Nested,
    Ordered (phase.opened clock tick)
  | .phase label inside => by
    rw [Nested.opened, Ordered, List.pairwise_cons]
    refine ⟨fun s mem => ?_, openedAll_ordered mono (tick + 1) inside⟩
    exact (mono (Nat.le_succ tick)).trans (openedAll_within mono (tick + 1) inside s mem).1

theorem openedAll_ordered (mono : Monotone clock) (tick : Nat) : ∀ phases : List Nested,
    Ordered (openedAll clock tick phases)
  | [] => List.Pairwise.nil
  | phase :: rest => by
    rw [openedAll, Ordered, List.pairwise_append]
    refine ⟨phase.opened_ordered mono tick, openedAll_ordered mono _ rest, ?_⟩
    intro a ha b hb
    obtain ⟨-, ordered, stop⟩ := phase.opened_within mono tick a ha
    obtain ⟨start, -, -⟩ := openedAll_within mono _ rest b hb
    exact (ordered.trans stop).trans start

end

mutual

/-- The spans that a phase records are those of the phases opened in it. -/
theorem Nested.run_perm (clock : Clock) (tick : Nat) : ∀ phase : Nested,
    (phase.run clock tick).1.Perm (phase.opened clock tick)
  | .phase label inside => by
    simp only [Nested.run, Nested.opened]
    refine (List.perm_append_singleton _ _).trans (List.Perm.cons _ ?_)
    exact runAll_perm clock (tick + 1) inside

theorem runAll_perm (clock : Clock) (tick : Nat) : ∀ phases : List Nested,
    (runAll clock tick phases).1.Perm (openedAll clock tick phases)
  | [] => List.Perm.refl _
  | phase :: rest => by
    simp only [runAll, openedAll]
    exact (phase.run_perm clock tick).append (runAll_perm clock _ rest)

end

mutual

theorem Nested.label_opened (clock : Clock) (tick depth : Nat) : ∀ phase : Nested,
    (phase.opened clock tick).map Span.label = (phase.outline depth).map Prod.fst
  | .phase label inside => by
    simp only [Nested.opened, Nested.outline, List.map_cons, Nested.span]
    rw [label_openedAll clock (tick + 1) (depth + 1) inside]

/-- The outline names the phases in the order of opening. -/
theorem label_openedAll (clock : Clock) (tick depth : Nat) : ∀ phases : List Nested,
    (openedAll clock tick phases).map Span.label = (outlineAll depth phases).map Prod.fst
  | [] => rfl
  | phase :: rest => by
    simp only [openedAll, outlineAll, List.map_append]
    rw [phase.label_opened clock tick depth, label_openedAll clock _ depth rest]

end

/-! ## The order of a report -/

theorem startedAt_eq_nil {time : Nat} {spans : List Span} (later : ∀ s ∈ spans, time < s.start) :
    startedAt time spans = [] := by
  rw [List.eq_nil_iff_forall_not_mem]
  intro s mem
  obtain ⟨mem, started⟩ := mem_startedAt.mp mem
  have := later s mem
  omega

mutual

/-- **Closing order and opening order agree on spans that start together** where no phase starts at
the time of one that it is inside of. -/
theorem Nested.startedAt_run (time : Nat) (tick : Nat) : ∀ phase : Nested,
    (∀ pair ∈ phase.enclosures clock tick, pair.1.start < pair.2.start) →
      startedAt time (phase.run clock tick).1 = startedAt time (phase.opened clock tick)
  | .phase label inside => by
    intro later
    simp only [Nested.enclosures, List.mem_append, List.mem_map] at later
    have inner := startedAt_runAll time (tick + 1) inside fun pair mem => later pair (Or.inr mem)
    simp only [Nested.run, Nested.opened, startedAt_append, startedAt_cons, startedAt_nil, inner]
    by_cases here : clock tick = time
    · have none : startedAt time (openedAll clock (tick + 1) inside) = [] := by
        refine startedAt_eq_nil fun s mem => ?_
        have := later _ (Or.inl ⟨s, mem, rfl⟩)
        simpa [Nested.span, here] using this
      simp [none, here, Nested.span]
    · simp [here, Nested.span]

theorem startedAt_runAll (time : Nat) (tick : Nat) : ∀ phases : List Nested,
    (∀ pair ∈ enclosuresAll clock tick phases, pair.1.start < pair.2.start) →
      startedAt time (runAll clock tick phases).1 = startedAt time (openedAll clock tick phases)
  | [] => fun _ => rfl
  | phase :: rest => by
    intro later
    simp only [enclosuresAll, List.mem_append] at later
    simp only [runAll, openedAll, startedAt_append]
    rw [phase.startedAt_run time tick fun pair mem => later pair (Or.inl mem),
      startedAt_runAll time _ rest fun pair mem => later pair (Or.inr mem)]

end

theorem length_startedAt {spans spans' : List Span} (perm : spans.Perm spans') (time : Nat) :
    (startedAt time spans).length = (startedAt time spans').length :=
  (perm.filter _).length_eq

mutual

/-- Conversely, of two phases that start together the inner one is closed first. -/
theorem Nested.start_lt_of_startedAt (mono : Monotone clock) (tick : Nat) : ∀ phase : Nested,
    ((phase.opened clock tick).map Span.label).Nodup →
      (∀ time, startedAt time (phase.run clock tick).1 =
        startedAt time (phase.opened clock tick)) →
      ∀ pair ∈ phase.enclosures clock tick, pair.1.start < pair.2.start
  | .phase label inside => by
    intro distinct same
    simp only [Nested.opened, List.map_cons, List.nodup_cons] at distinct
    obtain ⟨fresh, distinct⟩ := distinct
    simp only [Nested.run, Nested.opened, startedAt_append, startedAt_cons, startedAt_nil] at same
    have perm := runAll_perm clock (tick + 1) inside
    -- else the first of the spans that start with the phase would be its own
    have none : startedAt (clock tick) (openedAll clock (tick + 1) inside) = [] := by
      have here := same (clock tick)
      simp only [Nested.span, if_true] at here
      cases first : startedAt (clock tick) (runAll clock (tick + 1) inside).1 with
      | nil =>
        have lengths := length_startedAt perm (clock tick)
        rw [first] at lengths
        exact List.length_eq_zero_iff.mp lengths.symm
      | cons s rest =>
        rw [first, List.cons_append, List.cons.injEq] at here
        have mem : s ∈ startedAt (clock tick) (runAll clock (tick + 1) inside).1 := by simp [first]
        have inner := perm.mem_iff.mp (mem_startedAt.mp mem).1
        exact absurd (List.mem_map.mpr ⟨s, inner, by rw [here.1]; rfl⟩) fresh
    have later : ∀ s ∈ openedAll clock (tick + 1) inside, clock tick < s.start := by
      intro s mem
      have start := (openedAll_within mono (tick + 1) inside s mem).1
      have other : s.start ≠ clock tick := by
        intro together
        have started := mem_startedAt.mpr ⟨mem, together⟩
        simp [none] at started
      have : clock tick ≤ clock (tick + 1) := mono (Nat.le_succ tick)
      omega
    have inner : ∀ time, startedAt time (runAll clock (tick + 1) inside).1 =
        startedAt time (openedAll clock (tick + 1) inside) := by
      intro time
      by_cases here : clock tick = time
      · subst here
        have lengths := length_startedAt perm (clock tick)
        rw [none] at lengths ⊢
        exact List.length_eq_zero_iff.mp lengths
      · have there := same time
        simpa [Nested.span, here] using there
    intro pair mem
    rw [Nested.enclosures, List.mem_append, List.mem_map] at mem
    rcases mem with ⟨s, mem, rfl⟩ | mem
    · exact later s mem
    · exact start_lt_of_startedAt mono (tick + 1) inside distinct inner pair mem

theorem start_lt_of_startedAt (mono : Monotone clock) (tick : Nat) : ∀ phases : List Nested,
    ((openedAll clock tick phases).map Span.label).Nodup →
      (∀ time, startedAt time (runAll clock tick phases).1 =
        startedAt time (openedAll clock tick phases)) →
      ∀ pair ∈ enclosuresAll clock tick phases, pair.1.start < pair.2.start
  | [] => by simp [enclosuresAll]
  | phase :: rest => by
    intro distinct same
    simp only [openedAll, List.map_append, List.nodup_append] at distinct
    simp only [runAll, openedAll, startedAt_append] at same
    have split := fun time =>
      List.append_inj (same time) (length_startedAt (phase.run_perm clock tick) time)
    intro pair mem
    rw [enclosuresAll, List.mem_append] at mem
    rcases mem with mem | mem
    · exact phase.start_lt_of_startedAt mono tick distinct.1 (fun time => (split time).1) pair mem
    · exact start_lt_of_startedAt mono _ rest distinct.2.1 (fun time => (split time).2) pair mem

end

/-! ## The depths of a report -/

mutual

/-- The lines for phases in the order of opening are their outline if, and only if, those running
before are as many as the depth says and no phase stops before one inside it starts. -/
theorem Nested.countedLines_opened (mono : Monotone clock) (tick depth : Nat)
    (earlier : List Span) : ∀ phase : Nested,
    (∀ s ∈ phase.opened clock tick, runningAt s.start earlier ≤ depth) →
      ((countedLines earlier (phase.opened clock tick)).map Phase.entry = phase.outline depth ↔
        (∀ s ∈ phase.opened clock tick, runningAt s.start earlier = depth) ∧
          ∀ pair ∈ phase.enclosures clock tick, pair.2.start < pair.1.stop)
  | .phase label inside => by
    intro bound
    simp only [Nested.opened, List.mem_cons, forall_eq_or_imp] at bound ⊢
    obtain ⟨-, bound⟩ := bound
    -- seen from inside, the phase itself may be running too
    have deeper : ∀ s ∈ openedAll clock (tick + 1) inside,
        runningAt s.start (earlier ++ [Nested.span clock tick (.phase label inside)]) ≤
          depth + 1 := by
      intro s mem
      have := bound s mem
      rw [runningAt_append, runningAt_singleton]
      split <;> omega
    have inner := countedLines_openedAll mono (tick + 1) (depth + 1) _ inside deeper
    have both : ∀ s ∈ openedAll clock (tick + 1) inside,
        (runningAt s.start (earlier ++ [Nested.span clock tick (.phase label inside)]) =
            depth + 1 ↔
          runningAt s.start earlier = depth ∧
            s.start < (Nested.span clock tick (.phase label inside)).stop) := by
      intro s mem
      have := bound s mem
      rw [runningAt_append, runningAt_singleton]
      split <;> omega
    simp only [countedLines, List.map_cons, Nested.outline, List.cons.injEq, inner,
      Nested.enclosures, List.mem_append, List.mem_map]
    constructor
    · rintro ⟨first, depths, stops⟩
      refine ⟨⟨(Prod.mk.injEq .. ▸ first).2, fun s mem => ((both s mem).mp (depths s mem)).1⟩, ?_⟩
      rintro pair (⟨s, mem, rfl⟩ | mem)
      · exact ((both s mem).mp (depths s mem)).2
      · exact stops pair mem
    · rintro ⟨⟨first, depths⟩, stops⟩
      refine ⟨Prod.ext rfl first, fun s mem => ?_, fun pair mem => stops pair (Or.inr mem)⟩
      exact (both s mem).mpr ⟨depths s mem, stops _ (Or.inl ⟨s, mem, rfl⟩)⟩

theorem countedLines_openedAll (mono : Monotone clock) (tick depth : Nat)
    (earlier : List Span) : ∀ phases : List Nested,
    (∀ s ∈ openedAll clock tick phases, runningAt s.start earlier ≤ depth) →
      ((countedLines earlier (openedAll clock tick phases)).map Phase.entry =
          outlineAll depth phases ↔
        (∀ s ∈ openedAll clock tick phases, runningAt s.start earlier = depth) ∧
          ∀ pair ∈ enclosuresAll clock tick phases, pair.2.start < pair.1.stop)
  | [] => by simp [openedAll, outlineAll, enclosuresAll, countedLines]
  | phase :: rest => by
    intro bound
    simp only [openedAll, List.mem_append] at bound ⊢
    -- the phases of the first have all stopped when the others start
    have ended : ∀ s ∈ openedAll clock (phase.run clock tick).2 rest,
        runningAt s.start (earlier ++ phase.opened clock tick) = runningAt s.start earlier := by
      intro s mem
      have start := (openedAll_within mono _ rest s mem).1
      have stopped : runningAt s.start (phase.opened clock tick) = 0 :=
        runningAt_eq_zero fun s' mem' =>
          (phase.opened_within mono tick s' mem').2.2.trans start
      rw [runningAt_append, stopped, Nat.add_zero]
    have first := phase.countedLines_opened mono tick depth earlier
      fun s mem => bound s (Or.inl mem)
    have others := countedLines_openedAll mono (phase.run clock tick).2 depth
      (earlier ++ phase.opened clock tick) rest
      fun s mem => (ended s mem).trans_le (bound s (Or.inr mem))
    have lengths : ((countedLines earlier (phase.opened clock tick)).map Phase.entry).length =
        (phase.outline depth).length := by
      have labels := congrArg List.length (phase.label_opened clock tick depth)
      simpa using labels
    have split : ∀ {a b c d : List (String × Nat)}, a.length = c.length →
        (a ++ b = c ++ d ↔ a = c ∧ b = d) :=
      fun same => ⟨fun h => List.append_inj h same, fun h => by rw [h.1, h.2]⟩
    rw [countedLines_append, List.map_append, outlineAll, split lengths, first, others]
    simp only [enclosuresAll, List.mem_append, or_imp, forall_and]
    constructor
    · rintro ⟨⟨depths, stops⟩, depths', stops'⟩
      exact ⟨⟨depths, fun s mem => ended s mem ▸ depths' s mem⟩, stops, stops'⟩
    · rintro ⟨⟨depths, depths'⟩, stops, stops'⟩
      exact ⟨⟨depths, stops⟩, fun s mem => (ended s mem).trans (depths' s mem), stops'⟩

end

/-! ## The main statement -/

/-- Lists of the same spans that name them alike, each by another label, are the same. -/
theorem eq_of_label {spans spans' : List Span} (perm : spans.Perm spans')
    (distinct : (spans'.map Span.label).Nodup)
    (same : spans.map Span.label = spans'.map Span.label) : spans = spans' := by
  refine List.ext_getElem perm.length_eq fun i hi hi' => ?_
  have labels : spans[i].label = spans'[i].label := by
    have here := congrArg (·[i]?) same
    simpa [hi, hi'] using here
  exact List.inj_on_of_nodup_map distinct (perm.mem_iff.mp (List.getElem_mem hi))
    (List.getElem_mem hi') labels

theorem entry_fst (lines : List Phase) :
    (lines.map Phase.entry).map Prod.fst = lines.map Phase.label := by
  simp [Phase.entry, Function.comp_def]

/-- **What a report shows of nested phases.**  Every phase that was closed is listed once.  If
every phase inside another one starts later than that one and earlier than that one stops, then the
phases are listed in the order in which they were opened, each with the number of phases that were
open at that time, whatever other readings of the clock coincide.  Of phases with different labels
this is so in no other case. -/
theorem reportOn_exact (mono : Monotone clock) (phases : List Nested) :
    ((reportOn clock phases).phases.map Phase.label).Perm
        ((outlineAll 0 phases).map Prod.fst) ∧
      (clock.Separates phases →
        (reportOn clock phases).phases.map Phase.entry = outlineAll 0 phases) ∧
      (((outlineAll 0 phases).map Prod.fst).Nodup →
        (reportOn clock phases).phases.map Phase.entry = outlineAll 0 phases →
        clock.Separates phases) := by
  have lines : (reportOn clock phases).phases =
      countedLines [] (inOrder (runAll clock 0 phases).1) := ofSpans_eq _
  have perm : (inOrder (runAll clock 0 phases).1).Perm (openedAll clock 0 phases) :=
    (inOrder_perm _).trans (runAll_perm clock 0 phases)
  have names := label_openedAll clock 0 0 phases
  have ordered := openedAll_ordered mono 0 phases
  have depths := countedLines_openedAll mono 0 0 [] phases fun s _ => Nat.le_refl 0
  refine ⟨?_, fun separates => ?_, fun distinct same => ?_⟩
  · rw [lines, label_countedLines, ← names]
    exact perm.map Span.label
  · have order : inOrder (runAll clock 0 phases).1 = openedAll clock 0 phases :=
      (inOrder_eq_iff ordered).mpr fun time =>
        startedAt_runAll time 0 phases fun pair mem => (separates pair mem).1
    rw [lines, order, depths]
    exact ⟨fun _ _ => rfl, fun pair mem => (separates pair mem).2⟩
  · rw [← names] at distinct
    have order : inOrder (runAll clock 0 phases).1 = openedAll clock 0 phases := by
      have labels := congrArg (List.map Prod.fst) same
      rw [entry_fst, lines, label_countedLines, ← names] at labels
      exact eq_of_label perm distinct labels
    have starts := start_lt_of_startedAt mono 0 phases distinct ((inOrder_eq_iff ordered).mp order)
    rw [lines, order, depths] at same
    exact fun pair mem => ⟨starts pair mem, same.2 pair mem⟩

/-- A phase with two phases inside it, one of which has a phase inside it. -/
def nestedAnalysis : Nested :=
  .phase "analysis" [.phase "hierarchy" [], .phase "typecheck" [.phase "methods" []]]

/-- A clock that shows 0, 1, 2, 2, 3, 4, 4, 4 and so on. -/
def slowClock : Clock :=
  fun tick => min (if tick ≤ 2 then tick else tick - 1) 4

/-- The second phase starts when the first one stops, and the last three phases stop together. -/
theorem reportOn_exact_harmless :
    Monotone slowClock ∧ slowClock.Separates [nestedAnalysis] ∧
      (reportOn slowClock [nestedAnalysis]).phases.map Phase.entry =
        [("analysis", 0), ("hierarchy", 1), ("typecheck", 1), ("methods", 2)] := by
  have mono : Monotone slowClock := by
    intro a b le
    simp only [slowClock]
    split <;> split <;> omega
  have separates : slowClock.Separates [nestedAnalysis] := by decide
  exact ⟨mono, separates, (reportOn_exact mono [nestedAnalysis]).2.1 separates⟩

/-- A phase with one phase inside it. -/
def innerInOuter : Nested :=
  .phase "outer" [.phase "inner" []]

/-- **Readings that coincide can turn nesting around.**  If the inner phase is opened at the time at
which the outer one is, the report lists it first, and the outer phase as if it were inside it.  If
the outer phase is closed at the time at which the inner one is opened, both are listed as
outermost. -/
theorem coinciding_readings_misreported :
    outlineAll 0 [innerInOuter] = [("outer", 0), ("inner", 1)] ∧
      (∃ clock : Clock, Monotone clock ∧ (List.range 4).map clock = [0, 0, 1, 2] ∧
        (reportOn clock [innerInOuter]).phases.map Phase.entry = [("inner", 0), ("outer", 1)]) ∧
      (∃ clock : Clock, Monotone clock ∧ (List.range 4).map clock = [0, 1, 1, 1] ∧
        (reportOn clock [innerInOuter]).phases.map Phase.entry =
          [("outer", 0), ("inner", 0)]) := by
  refine ⟨rfl, ⟨fun tick => tick - 1, ?_, rfl, by cbv⟩, ⟨fun tick => min tick 1, ?_, rfl, by cbv⟩⟩
  · intro a b le
    exact Nat.sub_le_sub_right le 1
  · intro a b le
    simp only
    omega

end Timing

end SelfTyped
