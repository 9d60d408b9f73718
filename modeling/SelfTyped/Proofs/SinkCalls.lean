/-
SelfTyped.Proofs.SinkCalls — a sink over a sequence of calls.

A sink keeps its records, its counters and its output apart, and a call
changes each of them by itself.  `Sink.After` says what all three are
after a sequence of calls; one more call keeps it (`After.perform`), so
that it holds of every run.

A diagnostic is written piece by piece, apart from its plain text.  Both
are compared through spans: plain output is the texts of the spans
(`Piece.renderAll_plain`), and the spans of what a pen draws are those of
its strokes on a writer of any style, since the style of a pen that was
just taken up is that of a writer that was just reset
(`Stroke.spans_draw`).
-/
import Mathlib.Data.List.Induction
import SelfTyped.Proofs.Reports
import SelfTyped.Report.Calls

namespace SelfTyped

/-! ## Spans -/

namespace Piece

theorem settle_append (style : Style) (first rest : List Piece) :
    settle style (first ++ rest) = settle (settle style first) rest :=
  List.foldl_append

theorem spans_append (style : Style) (first rest : List Piece) :
    spans style (first ++ rest) = spans style first ++ spans (settle style first) rest := by
  induction first generalizing style with
  | nil => rfl
  | cons piece more ih =>
    cases piece with
    | text content => exact congrArg (_ :: ·) (ih style)
    | style new => exact ih new
    | reset => exact ih {}

theorem renderAll_append (device : Device) (first rest : List Piece) :
    renderAll device (first ++ rest) = renderAll device first ++ renderAll device rest := by
  rw [renderAll, List.map_append, String.join_append]
  rfl

/-- Plain output is the texts of the spans, whatever style the writer starts in. -/
theorem renderAll_plain (style : Style) (pieces : List Piece) :
    renderAll .plain pieces = String.join ((spans style pieces).map Span.text) := by
  induction pieces generalizing style with
  | nil => rfl
  | cons piece rest ih =>
    show String.join (piece.render .plain :: rest.map (render .plain)) = _
    rw [String.join_cons]
    cases piece with
    | text content => exact (congrArg (content ++ ·) (ih style)).trans String.join_cons.symm
    | style new => exact String.empty_append.trans (ih new)
    | reset => exact String.empty_append.trans (ih {})

end Piece

/-! ## Pens -/

namespace Stroke

/-- A writer that has the style of a pen keeps it while the pen is in use. -/
theorem spans_pieces (style : Style) (strokes : List Stroke) :
    Piece.spans style (pieces style strokes) = spans style strokes := by
  induction strokes generalizing style with
  | nil => rfl
  | cons stroke rest ih =>
    cases stroke with
    | text content => exact congrArg (_ :: ·) (ih style)
    | weight bold => exact ih _
    | colour new => exact ih _

/-- What is drawn looks the same on a writer of any style. -/
theorem spans_draw (style : Style) (strokes : List Stroke) :
    Piece.spans style (draw strokes) = spans {} strokes := by
  show Piece.spans {} (pieces {} strokes ++ [Piece.reset]) = _
  rw [Piece.spans_append, spans_pieces]
  exact List.append_nil _

/-- A pen that is put down leaves no style behind. -/
theorem settle_draw (style : Style) (strokes : List Stroke) :
    Piece.settle style (draw strokes) = {} := by
  rw [draw, Piece.settle_append]
  rfl

end Stroke

namespace Diagnostic

theorem pieces_eq_draw (d : Diagnostic) : d.pieces = Stroke.draw d.strokes := by
  obtain ⟨level, location, message⟩ := d
  cases location <;> rfl

theorem spans_strokes (d : Diagnostic) : Stroke.spans {} d.strokes = d.spans := by
  obtain ⟨level, location, message⟩ := d
  cases location <;> rfl

/-- The texts of a diagnostic's spans make up its line. -/
theorem join_spans (d : Diagnostic) : String.join (d.spans.map Span.text) = d.render ++ "\n" := by
  obtain ⟨level, location, message⟩ := d
  cases location <;> simp [spans, render, String.join_cons, String.append_assoc]

end Diagnostic

/-! ## Calls -/

namespace SinkCall

theorem records_append (calls later : List SinkCall) :
    records (calls ++ later) = records calls ++ records later :=
  List.filterMap_append

theorem lines_append (before calls : List SinkCall) (call : SinkCall) :
    lines before (calls ++ [call]) = lines before calls ++
      [call.line (tally .error (before ++ calls)) (tally .warning (before ++ calls))] := by
  induction calls generalizing before with
  | nil => simp [lines]
  | cons first rest ih => simp [lines, ih]

variable (errors warnings : Nat) (call : SinkCall)

theorem spans_strokes : Stroke.spans {} (call.strokes errors warnings) =
    call.spans errors warnings := by
  unfold strokes spans
  cases call.record? with
  | some d => exact d.spans_strokes
  | none => rfl

theorem join_spans : String.join ((call.spans errors warnings).map Span.text) =
    call.line errors warnings := by
  unfold spans line
  cases call.record? with
  | some d => exact d.join_spans
  | none => simp

end SinkCall

namespace Sink

/-- The closing line depends on the counters alone. -/
theorem statisticsPieces_eq_draw (s : Sink) :
    s.statisticsPieces =
      Stroke.draw (SinkCall.writeStatistics.strokes (s.count .error) (s.count .warning)) := by
  unfold statisticsPieces errored
  simp only [decide_eq_true_eq]
  rfl

/-- A call reports its diagnostic if it has one, and else writes the closing line. -/
theorem perform_eq (s : Sink) (call : SinkCall) :
    s.perform call = match call.record? with
      | some d => s.emit d
      | none => s.writeStatistics := by
  cases call <;> rfl

theorem written_emit (s : Sink) (d : Diagnostic) : (s.emit d).written = s.written ++ d.pieces := by
  unfold emit increment
  cases d.level <;> rfl

/-- A call adds to the output what it draws. -/
theorem written_perform (s : Sink) (call : SinkCall) :
    (s.perform call).written =
      s.written ++ Stroke.draw (call.strokes (s.count .error) (s.count .warning)) := by
  rw [perform_eq, SinkCall.strokes]
  cases call.record? with
  | some d => exact (s.written_emit d).trans (congrArg (s.written ++ ·) d.pieces_eq_draw)
  | none => exact congrArg (s.written ++ ·) s.statisticsPieces_eq_draw

/-- What a sink is after a sequence of calls. -/
structure After (s : Sink) (calls : List SinkCall) : Prop where
  messages_eq : s.messages = SinkCall.records calls
  count_eq : ∀ level, s.count level = SinkCall.tally level calls
  plain_eq : Piece.renderAll .plain s.written = String.join (SinkCall.lines [] calls)

namespace After

variable {s : Sink} {calls : List SinkCall}

theorem messages_perform (after : s.After calls) (call : SinkCall) :
    (s.perform call).messages = SinkCall.records (calls ++ [call]) := by
  rw [perform_eq, SinkCall.records_append, ← after.messages_eq]
  cases recorded : call.record? with
  | some d => simpa [SinkCall.records, recorded] using s.messages_emit d
  | none => simp [SinkCall.records, recorded, writeStatistics]

theorem count_perform (after : s.After calls) (call : SinkCall) (level : Level) :
    (s.perform call).count level = SinkCall.tally level (calls ++ [call]) := by
  rw [perform_eq, SinkCall.tally, SinkCall.records_append, List.countP_append,
    ← SinkCall.tally, ← after.count_eq]
  cases recorded : call.record? with
  | some d => simpa [SinkCall.records, recorded] using s.count_emit d level
  | none =>
    simp only [SinkCall.records, List.filterMap_cons, recorded]
    rfl

theorem plain_perform (after : s.After calls) (call : SinkCall) :
    Piece.renderAll .plain (s.perform call).written =
      String.join (SinkCall.lines [] (calls ++ [call])) := by
  rw [written_perform, Piece.renderAll_append, after.plain_eq, Piece.renderAll_plain {},
    Stroke.spans_draw, SinkCall.spans_strokes, SinkCall.join_spans, SinkCall.lines_append,
    String.join_append, after.count_eq, after.count_eq, List.nil_append, String.join_cons,
    String.join_nil, String.append_empty]

theorem perform (after : s.After calls) (call : SinkCall) :
    (s.perform call).After (calls ++ [call]) :=
  ⟨after.messages_perform call, after.count_perform call, after.plain_perform call⟩

end After

theorem run_append (calls : List SinkCall) (call : SinkCall) :
    run (calls ++ [call]) = (run calls).perform call := by
  rw [run, List.foldl_append]
  rfl

theorem run_after (calls : List SinkCall) : (run calls).After calls := by
  induction calls using List.reverseRecOn with
  | nil => exact ⟨rfl, fun level => by cases level <;> rfl, rfl⟩
  | append_singleton calls call ih =>
    rw [run_append]
    exact ih.perform call

/-- What a new sink shows after a sequence of calls. -/
structure Consistent (calls : List SinkCall) : Prop where
  /-- The messages are the diagnostics that were reported, in order. -/
  messages_eq : (run calls).messages = SinkCall.records calls
  /-- Every level is counted by itself. -/
  count_eq : ∀ level, (run calls).count level =
    (SinkCall.records calls).countP (·.level = level)
  errored_iff : (run calls).errored ↔ ∃ d ∈ SinkCall.records calls, d.level = .error
  /-- Without its styles, the output is a line for each call. -/
  plain_eq : Piece.renderAll .plain (run calls).written = String.join (SinkCall.lines [] calls)
  /-- One more call resets the writer first and last, and what it writes in between appears as
  the call says, whatever style the writer was left in. -/
  drawn : ∀ call : SinkCall, ∃ body : List Piece,
    (run (calls ++ [call])).written =
        (run calls).written ++ ([Piece.reset] ++ body ++ [Piece.reset]) ∧
      ∀ style, Piece.spans style ([Piece.reset] ++ body ++ [Piece.reset]) =
        call.spans (SinkCall.tally .error calls) (SinkCall.tally .warning calls)
  /-- No call leaves a style behind. -/
  settled : calls ≠ [] → ∀ style, Piece.settle style (run calls).written = {}

theorem errored_iff_record (calls : List SinkCall) :
    (run calls).errored ↔ ∃ d ∈ SinkCall.records calls, d.level = .error := by
  rw [errored, (run_after calls).count_eq, SinkCall.tally, decide_eq_true_iff, gt_iff_lt,
    List.countP_pos_iff]
  simp only [decide_eq_true_eq]

theorem written_run_append (calls : List SinkCall) (call : SinkCall) :
    (run (calls ++ [call])).written = (run calls).written ++
      Stroke.draw (call.strokes (SinkCall.tally .error calls)
        (SinkCall.tally .warning calls)) := by
  rw [run_append, written_perform, (run_after calls).count_eq, (run_after calls).count_eq]

theorem settle_run (calls : List SinkCall) (called : calls ≠ []) (style : Style) :
    Piece.settle style (run calls).written = {} := by
  induction calls using List.reverseRecOn with
  | nil => exact absurd rfl called
  | append_singleton before call _ =>
    rw [written_run_append, Piece.settle_append, Stroke.settle_draw]

/-- **Records, counters and output tell the same story.**  Whatever calls a new sink receives,
its messages are the diagnostics reported, its counters are their numbers, its output without
styles is one line for each call, and each call is written from reset to reset, the text of a
diagnostic plain. -/
theorem run_consistent (calls : List SinkCall) : Consistent calls where
  messages_eq := (run_after calls).messages_eq
  count_eq := (run_after calls).count_eq
  errored_iff := errored_iff_record calls
  plain_eq := (run_after calls).plain_eq
  drawn call := by
    refine ⟨_, written_run_append calls call, fun style => ?_⟩
    exact (Stroke.spans_draw style _).trans (SinkCall.spans_strokes _ _ call)
  settled := settle_run calls

/-- On a writer that was left bold and green, an error at a line and the closing line. -/
example :
    Piece.spans ⟨true, some .green⟩ (run [.errorAt ⟨"main.cl", 12⟩ "x", .writeStatistics]).written =
      [⟨"main.cl:12: ", true, none⟩, ⟨"error: ", true, some .red⟩, ⟨"x\n", false, none⟩,
        ⟨"Compilation halted due to a static semantic error\n", true, some .red⟩] := by
  decide

end Sink

end SelfTyped
