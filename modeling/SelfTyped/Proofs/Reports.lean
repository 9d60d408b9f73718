/-
SelfTyped.Proofs.Reports — what is reported of a program.

A sink keeps a diagnostic at the end of its messages and counts it by its
level (`Sink.messages_emitAll`, `Sink.count_emitAll`).  A violation of the
hierarchy and a finding are both reported as errors, so what a check
reports is told by two equations: `check_of_violation` for a program
without a hierarchy, and `check_of_analysis` for all others.
-/
import SelfTyped.Typing.Analysis

namespace SelfTyped

/-! ## Sinks -/

namespace Sink

variable (sink : Sink)

theorem messages_emit (d : Diagnostic) : (sink.emit d).messages = sink.messages ++ [d] := by
  unfold emit increment
  cases d.level <;> rfl

theorem count_emit (d : Diagnostic) (level : Level) :
    (sink.emit d).count level = sink.count level + if d.level = level then 1 else 0 := by
  unfold emit increment
  cases level <;> cases d.level <;> rfl

theorem messages_emitAll (ds : List Diagnostic) :
    (sink.emitAll ds).messages = sink.messages ++ ds := by
  induction ds generalizing sink with
  | nil => exact (List.append_nil _).symm
  | cons first rest ih =>
    show ((sink.emit first).emitAll rest).messages = _
    rw [ih, messages_emit, List.append_assoc, List.singleton_append]

/-- Every diagnostic is counted once, under its level. -/
theorem count_emitAll (ds : List Diagnostic) (level : Level) :
    (sink.emitAll ds).count level = sink.count level + ds.countP (·.level = level) := by
  induction ds generalizing sink with
  | nil => rfl
  | cons first rest ih =>
    show ((sink.emit first).emitAll rest).count level = _
    rw [ih, count_emit, List.countP_cons]
    simp only [decide_eq_true_eq]
    omega

/-- Every finding that is reported counts as an error. -/
theorem errors_emitAll (findings : List Finding) :
    (sink.emitAll (findings.map Finding.diagnostic)).errors = sink.errors + findings.length := by
  have counted := sink.count_emitAll (findings.map Finding.diagnostic) .error
  have errors : findings.countP (fun f => f.diagnostic.level = .error) = findings.length :=
    List.countP_eq_length.mpr fun _ _ => rfl
  rw [List.countP_map] at counted
  exact counted.trans (congrArg (sink.errors + ·) errors)

end Sink

/-! ## Programs -/

namespace Program

variable {p : Program} {h : Hierarchy} {m : Nat} {a : Analysis} {v : Violation}

/-- An analysis that succeeds is that of a program over its hierarchy. -/
theorem analyse_eq_ok_iff :
    p.analyse m = .ok a ↔ ∃ h, Hierarchy.build p = .ok h ∧ p.typeIn h m = a := by
  rw [analyse]
  cases Hierarchy.build p with
  | error v => simp [bind, Except.bind]
  | ok h => simp [bind, Except.bind, pure, Except.pure]

theorem analyse_of_build (built : Hierarchy.build p = .ok h) :
    p.analyse m = .ok (p.typeIn h m) :=
  analyse_eq_ok_iff.mpr ⟨h, built, rfl⟩

/-- An analysis fails with the violation that the hierarchy has. -/
theorem analyse_eq_error_iff : p.analyse m = .error v ↔ Hierarchy.build p = .error v := by
  rw [analyse]
  cases Hierarchy.build p with
  | error v' => simp [bind, Except.bind]
  | ok h => simp [bind, Except.bind, pure, Except.pure]

theorem check_of_violation (violated : Hierarchy.build p = .error v) (sink : Sink) :
    p.check m sink = (sink.emit v.diagnostic, .error ⟨.hierarchy, 1⟩) := by
  rw [check, analyse_eq_error_iff.mpr violated]

theorem check_of_analysis (analysed : p.analyse m = .ok a) (sink : Sink) :
    p.check m sink =
      (sink.emitAll (a.findings.map Finding.diagnostic),
        if sink.errors + a.findings.length > 0 then
          .error ⟨.typing, sink.errors + a.findings.length⟩
        else .ok a) := by
  have errors := sink.errors_emitAll a.findings
  rw [check, analysed]
  simp only [Sink.errored, Sink.count, errors, decide_eq_true_eq]

/-- The diagnostics of a check are the findings of the analysis. -/
theorem check_messages (built : Hierarchy.build p = .ok h) (m : Nat) (sink : Sink) :
    (p.check m sink).1.messages =
      sink.messages ++ (p.typeIn h m).findings.map Finding.diagnostic := by
  rw [check_of_analysis (analyse_of_build built)]
  exact Sink.messages_emitAll sink _

end Program

end SelfTyped
