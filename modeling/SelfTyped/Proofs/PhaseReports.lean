/-
SelfTyped.Proofs.PhaseReports — what a report says about the spans it was
made from.

A report puts spans in the order of their starts and lists each with the
number of spans in front of it that were still running when it started.
Two facts about it are independent of where the spans come from.

* The order is determined by what it does to the spans of each start:
  `inOrder_eq_iff`.  Of spans that started together, the one that
  was recorded first comes first.
* The list of running spans is pruned on the way, for good.  As starts do
  not decrease, a span that has stopped would not count later either, so
  the depths are those that one gets by counting among all earlier spans:
  `phasesFrom_eq_counted`.

`ofSpans_exact` puts the two together, and says of the pruned list itself
that it lacks no span that counts for one to come.
-/
import Mathlib.Data.List.Sort
import SelfTyped.Timing.Report

namespace SelfTyped

namespace Timing

/-! ## The order -/

/-- Whether a span started no later than another one. -/
def Span.startsBy (a b : Span) : Bool :=
  decide (a.start ≤ b.start)

/-- The spans that started at a time. -/
def startedAt (time : Nat) (spans : List Span) : List Span :=
  spans.filter fun s => s.start = time

@[simp] theorem startedAt_nil (time : Nat) : startedAt time [] = [] := rfl

@[simp] theorem startedAt_append (time : Nat) (before after : List Span) :
    startedAt time (before ++ after) = startedAt time before ++ startedAt time after := by
  simp [startedAt]

@[simp] theorem mem_startedAt {time : Nat} {spans : List Span} {s : Span} :
    s ∈ startedAt time spans ↔ s ∈ spans ∧ s.start = time := by
  simp [startedAt]

theorem startedAt_cons (time : Nat) (s : Span) (spans : List Span) :
    startedAt time (s :: spans) =
      if s.start = time then s :: startedAt time spans else startedAt time spans := by
  simp [startedAt, List.filter_cons]

/-- Spans in order of their starts. -/
def Ordered (spans : List Span) : Prop :=
  spans.Pairwise fun a b => a.start ≤ b.start

theorem mem_iff_of_startedAt {spans spans' : List Span}
    (same : ∀ time, startedAt time spans = startedAt time spans') (s : Span) :
    s ∈ spans ↔ s ∈ spans' := by
  have started := congrArg (s ∈ ·) (same s.start)
  simpa using started

/-- Ordered spans are determined by those of each start. -/
theorem Ordered.eq {spans spans' : List Span} (ordered : Ordered spans)
    (ordered' : Ordered spans') (same : ∀ time, startedAt time spans = startedAt time spans') :
    spans = spans' := by
  have mem := mem_iff_of_startedAt same
  induction spans generalizing spans' with
  | nil =>
    cases spans' with
    | nil => rfl
    | cons b rest' => simpa using mem b
  | cons a rest ih =>
    cases spans' with
    | nil => simpa using mem a
    | cons b rest' =>
      obtain ⟨first, others⟩ := List.pairwise_cons.mp ordered
      obtain ⟨first', others'⟩ := List.pairwise_cons.mp ordered'
      -- neither list can start later than the other
      have start : a.start = b.start := by
        have ha := (mem a).mp List.mem_cons_self
        have hb := (mem b).mpr List.mem_cons_self
        rcases List.mem_cons.mp ha with rfl | ha
        · rfl
        · rcases List.mem_cons.mp hb with rfl | hb
          · rfl
          · exact Nat.le_antisymm (first b hb) (first' a ha)
      have heads := same a.start
      rw [startedAt_cons, startedAt_cons, if_pos rfl, if_pos start.symm, List.cons.injEq] at heads
      obtain ⟨rfl, -⟩ := heads
      have tails : ∀ time, startedAt time rest = startedAt time rest' := by
        intro time
        have here := same time
        rw [startedAt_cons, startedAt_cons] at here
        split at here
        · exact (List.cons.inj here).2
        · exact here
      rw [ih others others' tails (mem_iff_of_startedAt tails)]

/-- The spans of a report, in its order. -/
def inOrder (spans : List Span) : List Span :=
  spans.mergeSort Span.startsBy

theorem inOrder_perm (spans : List Span) : (inOrder spans).Perm spans :=
  List.mergeSort_perm _ _

theorem startsBy_trans (a b c : Span) (ab : a.startsBy b = true) (bc : b.startsBy c = true) :
    a.startsBy c = true := by
  simp only [Span.startsBy, decide_eq_true_eq] at *
  omega

theorem startsBy_total (a b : Span) : (a.startsBy b || b.startsBy a) = true := by
  simp only [Span.startsBy, Bool.or_eq_true, decide_eq_true_eq]
  omega

theorem inOrder_ordered (spans : List Span) : Ordered (inOrder spans) := by
  have sorted := List.pairwise_mergeSort startsBy_trans startsBy_total spans
  simpa [Ordered, inOrder, Span.startsBy] using sorted

/-- **Spans that started together keep their order.** -/
theorem startedAt_inOrder (time : Nat) (spans : List Span) :
    startedAt time (inOrder spans) = startedAt time spans := by
  have together : (startedAt time spans).Pairwise fun a b => a.startsBy b = true := by
    refine List.pairwise_of_forall_mem_list fun a ha b hb => ?_
    simp [Span.startsBy, (mem_startedAt.mp ha).2, (mem_startedAt.mp hb).2]
  have kept : (startedAt time spans).Sublist (inOrder spans) :=
    List.sublist_mergeSort startsBy_trans startsBy_total together List.filter_sublist
  have inside : (startedAt time spans).Sublist (startedAt time (inOrder spans)) := by
    have filtered := kept.filter fun s => decide (s.start = time)
    simpa [startedAt] using filtered
  exact (inside.eq_of_length ((inOrder_perm spans).filter _).length_eq.symm).symm

/-- The order of a report is the only one that keeps the order of spans that started together. -/
theorem inOrder_eq_iff {spans listed : List Span} (ordered : Ordered listed) :
    inOrder spans = listed ↔ ∀ time, startedAt time spans = startedAt time listed := by
  constructor
  · rintro rfl time
    exact (startedAt_inOrder time spans).symm
  · intro same
    refine (inOrder_ordered spans).eq ordered fun time => ?_
    rw [startedAt_inOrder, same]

/-! ## The depths -/

/-- The number of earlier spans that are running at a time. -/
def runningAt (time : Nat) (earlier : List Span) : Nat :=
  earlier.countP fun s => decide (time < s.stop)

@[simp] theorem runningAt_append (time : Nat) (before after : List Span) :
    runningAt time (before ++ after) = runningAt time before + runningAt time after := by
  simp [runningAt]

@[simp] theorem runningAt_singleton (time : Nat) (s : Span) :
    runningAt time [s] = if time < s.stop then 1 else 0 := by
  simp [runningAt]

theorem runningAt_eq_zero {time : Nat} {spans : List Span}
    (stopped : ∀ s ∈ spans, s.stop ≤ time) : runningAt time spans = 0 := by
  simp only [runningAt, List.countP_eq_zero, decide_eq_true_eq]
  intro s mem
  have := stopped s mem
  omega

/-- The line for a span, given the spans in front of it. -/
def lineAfter (earlier : List Span) (s : Span) : Phase :=
  ⟨s.label, runningAt s.start earlier, (s.stop - s.start) / nanosPerMilli⟩

/-- The lines for spans, counting for each among all spans in front of it. -/
def countedLines : List Span → List Span → List Phase
  | _, [] => []
  | earlier, s :: rest => lineAfter earlier s :: countedLines (earlier ++ [s]) rest

theorem countedLines_append (earlier before after : List Span) :
    countedLines earlier (before ++ after) =
      countedLines earlier before ++ countedLines (earlier ++ before) after := by
  induction before generalizing earlier with
  | nil => simp [countedLines]
  | cons s rest ih => simp [countedLines, ih]

@[simp] theorem length_countedLines (earlier spans : List Span) :
    (countedLines earlier spans).length = spans.length := by
  induction spans generalizing earlier with
  | nil => rfl
  | cons s rest ih => simp [countedLines, ih]

theorem label_countedLines (earlier spans : List Span) :
    (countedLines earlier spans).map Phase.label = spans.map Span.label := by
  induction spans generalizing earlier with
  | nil => rfl
  | cons s rest ih => simp [countedLines, lineAfter, ih]

/-- A span that is running at a later time is not dropped for having stopped at an earlier one. -/
theorem filter_running {time later : Nat} (order : time ≤ later) (spans : List Span) :
    (spans.filter fun s => decide (time < s.stop)).filter (fun s => decide (later < s.stop)) =
      spans.filter fun s => decide (later < s.stop) := by
  rw [List.filter_filter]
  refine List.filter_congr fun s _ => ?_
  by_cases runs : later < s.stop
  · have runs' : time < s.stop := by omega
    simp [runs, runs']
  · simp [runs]

/-- **Dropping a span that has stopped loses nothing.**  The running spans may be any that count,
at the start of each span to come, for as much as all earlier ones. -/
theorem phasesFrom_eq_counted {running earlier spans : List Span} (ordered : Ordered spans)
    (same : ∀ s ∈ spans, running.filter (fun outer => decide (s.start < outer.stop)) =
      earlier.filter fun outer => decide (s.start < outer.stop)) :
    phasesFrom running spans = countedLines earlier spans := by
  induction spans generalizing running earlier with
  | nil => rfl
  | cons s rest ih =>
    obtain ⟨first, ordered⟩ := List.pairwise_cons.mp ordered
    have here := same s List.mem_cons_self
    have depth : (running.filter fun outer => decide (s.start < outer.stop)).length =
        runningAt s.start earlier := by
      rw [here, runningAt, List.countP_eq_length_filter]
    simp only [phasesFrom, countedLines, lineAfter, depth]
    congr 1
    refine ih ordered fun later mem => ?_
    rw [here, List.filter_append, List.filter_append, filter_running (first later mem)]

/-- **A report lists spans by their starts, each with the number of earlier ones that were still
running.** -/
theorem ofSpans_eq (spans : List Span) :
    (Report.ofSpans spans).phases = countedLines [] (inOrder spans) :=
  phasesFrom_eq_counted (inOrder_ordered spans) fun _ _ => rfl

/-! ## The running list -/

/-- The spans that are kept as running after going through some spans, given those kept before. -/
def runningAfter (running : List Span) : List Span → List Span
  | [] => running
  | s :: rest =>
    runningAfter ((running.filter fun outer => decide (s.start < outer.stop)) ++ [s]) rest

/-- The lines for further spans come from the spans that are kept so far. -/
theorem phasesFrom_append (running before after : List Span) :
    phasesFrom running (before ++ after) =
      phasesFrom running before ++ phasesFrom (runningAfter running before) after := by
  induction before generalizing running with
  | nil => rfl
  | cons s rest ih => simp only [List.cons_append, phasesFrom, runningAfter, ih]

/-- At a time by which all spans have started, the same ones are running among those that were kept
and among all. -/
theorem filter_runningAfter {time : Nat} {running spans : List Span}
    (started : ∀ s ∈ spans, s.start ≤ time) :
    (runningAfter running spans).filter (fun outer => decide (time < outer.stop)) =
      (running ++ spans).filter fun outer => decide (time < outer.stop) := by
  induction spans generalizing running with
  | nil => rw [runningAfter, List.append_nil]
  | cons s rest ih =>
    rw [runningAfter, ih fun later mem => started later (List.mem_cons_of_mem s mem),
      List.append_assoc, List.filter_append, filter_running (started s List.mem_cons_self),
      ← List.filter_append]
    rfl

/-! ## The main statement -/

/-- Spans in order of their starts, where spans that started together keep their order. -/
structure ListedByStart (spans listed : List Span) : Prop where
  perm : listed.Perm spans
  ordered : Ordered listed
  ties : ∀ time, startedAt time listed = startedAt time spans

theorem inOrder_listed (spans : List Span) : ListedByStart spans (inOrder spans) where
  perm := inOrder_perm spans
  ordered := inOrder_ordered spans
  ties := fun time => startedAt_inOrder time spans

theorem ListedByStart.eq_inOrder {spans listed : List Span} (order : ListedByStart spans listed) :
    listed = inOrder spans :=
  ((inOrder_eq_iff order.ordered).mpr fun time => (order.ties time).symm).symm

/-- What a report says of a span, given the spans listed before it and those listed after it. -/
structure CountedAmong (before : List Span) (s : Span) (after : List Span) (report : Report) :
    Prop where
  /-- The depth is the number of spans listed before that stop after this one starts. -/
  line : report.phases[before.length]? =
    some ⟨s.label, before.countP fun outer => decide (s.start < outer.stop),
      (s.stop - s.start) / nanosPerMilli⟩
  /-- The line and those after it come from the spans that are kept as running. -/
  continued : report.phases =
    phasesFrom [] before ++ phasesFrom (runningAfter [] before) (s :: after)
  /-- Every span that was dropped has stopped when this one or a later one starts. -/
  kept : ∀ later ∈ s :: after,
    (runningAfter [] before).filter (fun outer => decide (later.start < outer.stop)) =
      before.filter fun outer => decide (later.start < outer.stop)

theorem countedLines_getElem? (before : List Span) (s : Span) (after : List Span) :
    (countedLines [] (before ++ s :: after))[before.length]? = some (lineAfter before s) := by
  have front : (countedLines [] before).length = before.length := length_countedLines [] before
  rw [countedLines_append, List.nil_append, List.getElem?_append_right front.le, front,
    Nat.sub_self, countedLines, List.getElem?_cons_zero]

/-- **A report counts for each span the earlier ones that are still running.**  It has one line per
span.  The lines are in the order of the starts, and those of spans that started together in the
order in which the spans are given; there is only one such order.  The list of running spans, from
which finished ones are dropped, lacks none that counts for the span at hand or a later one. -/
theorem ofSpans_exact (spans : List Span) :
    ∃ listed, ListedByStart spans listed ∧
      (∀ other, ListedByStart spans other → other = listed) ∧
      (Report.ofSpans spans).phases.length = spans.length ∧
      ∀ before s after, listed = before ++ s :: after →
        CountedAmong before s after (Report.ofSpans spans) := by
  refine ⟨inOrder spans, inOrder_listed spans, fun other order => order.eq_inOrder, ?_, ?_⟩
  · rw [ofSpans_eq, length_countedLines]
    exact (inOrder_perm spans).length_eq
  · intro before s after split
    have ordered : Ordered (before ++ s :: after) := split ▸ inOrder_ordered spans
    obtain ⟨-, -, crossing⟩ := List.pairwise_append.mp ordered
    constructor
    · rw [ofSpans_eq, split, countedLines_getElem?]
      rfl
    · rw [← phasesFrom_append, ← split]
      rfl
    · intro later mem
      exact filter_runningAfter fun outer earlier => crossing outer earlier later mem

/-- Spans that overlap, two of which start together. -/
def overlappingSpans : List Span :=
  [⟨"late", 4, 9⟩, ⟨"first", 0, 4⟩, ⟨"later", 4, 5⟩, ⟨"second", 2, 6⟩]

/-- The first span has stopped when the last two start, and does not count for them.  Of these the
one that is given first is listed first, and it counts for the other. -/
theorem ofSpans_exact_overlapping :
    ListedByStart overlappingSpans
        [⟨"first", 0, 4⟩, ⟨"second", 2, 6⟩, ⟨"late", 4, 9⟩, ⟨"later", 4, 5⟩] ∧
      CountedAmong [⟨"first", 0, 4⟩, ⟨"second", 2, 6⟩] ⟨"late", 4, 9⟩ [⟨"later", 4, 5⟩]
        (Report.ofSpans overlappingSpans) ∧
      (Report.ofSpans overlappingSpans).phases[2]? = some ⟨"late", 1, 0⟩ ∧
      (Report.ofSpans overlappingSpans).phases[3]? = some ⟨"later", 2, 0⟩ := by
  obtain ⟨listed, -, unique, -, counted⟩ := ofSpans_exact overlappingSpans
  have sorted : ListedByStart overlappingSpans
      [⟨"first", 0, 4⟩, ⟨"second", 2, 6⟩, ⟨"late", 4, 9⟩, ⟨"later", 4, 5⟩] := by
    refine ⟨by decide, by simp [Ordered], fun time => ?_⟩
    simp only [overlappingSpans, startedAt_cons, startedAt_nil]
    split_ifs <;> first | rfl | omega
  have same := (unique _ sorted).symm
  have late := counted [⟨"first", 0, 4⟩, ⟨"second", 2, 6⟩] ⟨"late", 4, 9⟩ [⟨"later", 4, 5⟩] same
  have later := counted [⟨"first", 0, 4⟩, ⟨"second", 2, 6⟩, ⟨"late", 4, 9⟩] ⟨"later", 4, 5⟩ [] same
  exact ⟨sorted, late, late.line, later.line⟩

end Timing

end SelfTyped
