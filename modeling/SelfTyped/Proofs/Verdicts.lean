/-
SelfTyped.Proofs.Verdicts — everything that tells whether a program is
accepted says the same.

A check shows what it thinks of a program in its result, in the messages
of the sink, in the number of errors that the sink has counted, and in the
closing line.  A program stands in exactly one of three ways, and each
settles all four: it has no hierarchy, it has a number of type errors, or
nothing was found (`existsUnique_stands`).

The command does not ask the check but analyses and reports by itself
(`Command.run_of_read`).  Its exit code and its output follow the same three
ways: `verdicts_agree`.  That the action which is carried out ends with this
exit code is shown in `SelfTyped.Proofs.Execution`.
-/
import Mathlib.Logic.ExistsUnique
import SelfTyped.Proofs.Execution

namespace SelfTyped

/-! ## Closing lines -/

namespace Sink

/-- The closing line after a number of errors. -/
def haltLine (errors : Nat) : String :=
  "Compilation halted due to " ++
    if errors = 1 then "a static semantic error" else toString errors ++ " static semantic errors"

/-- The closing line when nothing was reported. -/
def successLine : String :=
  "Semantic analysis finished successfully without warnings"

/-- What the closing statistics add to the output, as plain text. -/
def closing (sink : Sink) : String :=
  Piece.renderAll .plain (sink.writeStatistics.written.drop sink.written.length)

theorem closing_eq (sink : Sink) : sink.closing = sink.statisticsLine ++ "\n" := by
  rw [closing, writeStatistics, List.drop_left]
  simp [statisticsPieces, Piece.renderAll, Piece.render, String.join]

theorem closing_of_errors {sink : Sink} {n : Nat} (counted : sink.count .error = n)
    (positive : 0 < n) : sink.closing = haltLine n ++ "\n" := by
  have errored : sink.errored = true := by rw [errored, counted, decide_eq_true positive]
  have errors : sink.errors = n := counted
  rw [closing_eq, statisticsLine, if_pos errored, errors]
  unfold haltLine
  congr 2
  split
  · rw [if_pos rfl]
  · rw [if_neg ‹_›]

theorem closing_of_silence {sink : Sink} (errors : sink.errors = 0) (warnings : sink.warnings = 0) :
    sink.closing = successLine ++ "\n" := by
  rw [closing_eq, statisticsLine, if_neg (by simp [errored, count, errors]), warnings]
  rfl

/-- No number of errors is announced as a success. -/
theorem haltLine_ne_successLine (n : Nat) : haltLine n ≠ successLine := by
  intro same
  have halted : "Compilation halted due to ".toList.head? = some 'C' := by decide
  have first : (haltLine n).toList.head? = some 'C' := by
    unfold haltLine
    rw [String.toList_append, List.head?_append, halted, Option.some_or]
  rw [same] at first
  exact absurd first (by decide)

end Sink

/-! ## Programs -/

namespace Program

variable {p : Program} {m : Nat}

/-- A program has no hierarchy.  Nothing is annotated, and the violation is all that is
reported. -/
structure Violated (p : Program) (m : Nat) (v : Violation) : Prop where
  built : Hierarchy.build p = .error v
  untyped : ¬ ∃ a, p.analyse m = .ok a
  messages : (p.check m Sink.empty).1.messages = [⟨.error, v.location, v.error.message⟩]
  counted : (p.check m Sink.empty).1.count .error = 1
  result : (p.check m Sink.empty).2 = .error ⟨.hierarchy, 1⟩
  closing : (p.check m Sink.empty).1.closing = Sink.haltLine 1 ++ "\n"

/-- A program has a hierarchy and a number of type errors, and nothing but errors is reported. -/
structure Faulty (p : Program) (m n : Nat) : Prop where
  built : ∃ h, Hierarchy.build p = .ok h
  positive : 1 ≤ n
  messages : (p.check m Sink.empty).1.messages.length = n
  levels : ∀ d ∈ (p.check m Sink.empty).1.messages, d.level = .error
  counted : (p.check m Sink.empty).1.count .error = n
  result : (p.check m Sink.empty).2 = .error ⟨.typing, n⟩
  closing : (p.check m Sink.empty).1.closing = Sink.haltLine n ++ "\n"

/-- A program has a hierarchy, and nothing is reported. -/
structure Clean (p : Program) (m : Nat) : Prop where
  built : ∃ h, Hierarchy.build p = .ok h
  messages : (p.check m Sink.empty).1.messages = []
  counted : (p.check m Sink.empty).1.count .error = 0
  result : ∃ a, p.analyse m = .ok a ∧ (p.check m Sink.empty).2 = .ok a
  closing : (p.check m Sink.empty).1.closing = Sink.successLine ++ "\n"

/-- How a program stands after a check. -/
inductive Standing where
  | violated (v : Violation)
  | faulty (errors : Nat)
  | clean

/-- A program stands in a way after a check that starts with nothing reported. -/
def Stands (p : Program) (m : Nat) : Standing → Prop
  | .violated v => p.Violated m v
  | .faulty errors => p.Faulty m errors
  | .clean => p.Clean m

theorem violated_of_build {v : Violation} (violated : Hierarchy.build p = .error v) (m : Nat) :
    p.Violated m v := by
  have checked := check_of_violation (m := m) violated Sink.empty
  have failed : p.analyse m = .error v := analyse_eq_error_iff.mpr violated
  constructor
  · exact violated
  · rintro ⟨a, analysed⟩
    rw [failed] at analysed
    exact absurd analysed (by simp)
  · rw [checked]
    exact Sink.messages_emit _ _
  · rw [checked]
    rfl
  · rw [checked]
  · rw [checked]
    exact Sink.closing_of_errors rfl Nat.one_pos

section
variable {h : Hierarchy}

theorem check_count (built : Hierarchy.build p = .ok h) (m : Nat) :
    (p.check m Sink.empty).1.count .error = (p.typeIn h m).findings.length := by
  rw [check_of_analysis (analyse_of_build built)]
  exact (Sink.errors_emitAll _ _).trans (Nat.zero_add _)

theorem faulty_of_build (built : Hierarchy.build p = .ok h)
    (found : (p.typeIn h m).findings ≠ []) : p.Faulty m (p.typeIn h m).findings.length := by
  have positive := List.length_pos_iff.mpr found
  have messages := check_messages built m Sink.empty
  rw [show Sink.empty.messages = [] from rfl, List.nil_append] at messages
  constructor
  · exact ⟨h, built⟩
  · exact positive
  · rw [messages, List.length_map]
  · intro d hd
    rw [messages] at hd
    obtain ⟨f, -, rfl⟩ := List.mem_map.mp hd
    rfl
  · exact check_count built m
  · rw [check_of_analysis (analyse_of_build built), show Sink.empty.errors = 0 from rfl,
      Nat.zero_add, if_pos positive]
  · exact Sink.closing_of_errors (check_count built m) positive

theorem clean_of_build (built : Hierarchy.build p = .ok h)
    (silent : (p.typeIn h m).findings = []) : p.Clean m := by
  have checked : p.check m Sink.empty = (Sink.empty, .ok (p.typeIn h m)) := by
    rw [check_of_analysis (analyse_of_build built), silent]
    rfl
  refine ⟨⟨h, built⟩, ?_, ?_, ⟨_, analyse_of_build built, ?_⟩, ?_⟩ <;> rw [checked]
  · rfl
  · rfl
  · exact Sink.closing_of_silence rfl rfl

end

/-- **A program stands in exactly one way** after a check. -/
theorem existsUnique_stands (p : Program) (m : Nat) : ∃! s, p.Stands m s := by
  cases built : Hierarchy.build p with
  | error v =>
    refine ⟨.violated v, violated_of_build built m, fun s stands => ?_⟩
    cases s with
    | violated v' => rw [Except.error.inj (built.symm.trans stands.built)]
    | faulty n =>
      obtain ⟨h, other⟩ := stands.built
      exact absurd (built.symm.trans other) (by simp)
    | clean =>
      obtain ⟨h, other⟩ := stands.built
      exact absurd (built.symm.trans other) (by simp)
  | ok h =>
    by_cases silent : (p.typeIn h m).findings = []
    · have clean := clean_of_build built silent
      refine ⟨.clean, clean, fun s stands => ?_⟩
      cases s with
      | violated v => exact absurd (built.symm.trans stands.built) (by simp)
      | faulty n =>
        have none := stands.counted.symm.trans clean.counted
        exact absurd stands.positive (by omega)
      | clean => rfl
    · have faulty := faulty_of_build built silent
      refine ⟨.faulty _, faulty, fun s stands => ?_⟩
      cases s with
      | violated v => exact absurd (built.symm.trans stands.built) (by simp)
      | faulty n => rw [stands.counted.symm.trans faulty.counted]
      | clean =>
        have none := faulty.counted.symm.trans stands.counted
        exact absurd faulty.positive (by omega)

/-- Nothing but a clean program is announced as a success. -/
theorem closing_eq_success_iff (p : Program) (m : Nat) :
    (p.check m Sink.empty).1.closing = Sink.successLine ++ "\n" ↔ p.Clean m := by
  have halted : ∀ n, (p.check m Sink.empty).1.closing = Sink.haltLine n ++ "\n" →
      (p.check m Sink.empty).1.closing ≠ Sink.successLine ++ "\n" := by
    intro n closing success
    rw [closing] at success
    exact Sink.haltLine_ne_successLine n (String.append_left_inj _ |>.mp success)
  obtain ⟨s, stands, -⟩ := p.existsUnique_stands m
  refine ⟨fun success => ?_, Clean.closing⟩
  cases s with
  | violated v => exact absurd success (halted 1 stands.closing)
  | faulty n => exact absurd success (halted n stands.closing)
  | clean => exact stands

end Program

/-! ## The command -/

/-- A listing holds at least the heading of the expressions. -/
theorem Listing.render_ne_empty (a : Analysis) : render a ≠ "" := by
  intro empty
  have heading : 'e' ∈ (render a).toList := by
    simp [render, lines, String.toList_join]
  rw [empty] at heading
  exact absurd heading (by simp)

/-- The verdict on a program, by how it stands. -/
def Program.Standing.verdict : Standing → Command.Verdict
  | .clean => .accepted
  | .violated _ | .faulty _ => .rejected

namespace Command

variable {options : Options} {input : Input} {source : Source.Program}

theorem readInput_text (options : Options) (text : String) :
    readInput options (.bytes text.toUTF8) =
      (Source.Program.parse text options.maxDepth).mapError (.badInput options.input) := by
  have decoded : String.fromUTF8? text.toUTF8 = some text := dif_pos text.isValidUTF8
  rw [readInput, Source.Program.parseBytes, decoded]

theorem run_of_failure {failure : Failure} (failed : readInput options input = .error failure) :
    run options input = ⟨.unreadable, "", [.text failure.render]⟩ := by
  rw [run, Progress.ofInput_eq, failed]
  rfl

/-- The check that the command makes of a program. -/
def checked (options : Options) (source : Source.Program) : Sink × Except Halt Analysis :=
  (Program.ofSource options.input source).check options.maxDepth Sink.empty

/-- The command does with a program that it can read what its check says. -/
theorem run_of_read (read : readInput options input = .ok source) :
    run options input =
      match checked options source with
      | (sink, .error _) => ⟨.rejected, "", sink.writeStatistics.written⟩
      | (sink, .ok a) =>
        ⟨.accepted, if options.printTypes then Listing.render a else "",
          sink.writeStatistics.written⟩ := by
  unfold checked
  cases analysed : (Program.ofSource options.input source).analyse options.maxDepth with
  | error v =>
    simp only [run, Progress.ofInput_eq, Progress.ofAnalysis, Progress.outcome, Program.check, read,
      analysed]
  | ok a =>
    simp only [run, Progress.ofInput_eq, Progress.ofAnalysis, Progress.outcome, Program.check, read,
      analysed]
    cases (Sink.empty.emitAll (a.findings.map Finding.diagnostic)).errored <;> rfl

theorem run_of_halt {halt : Halt} (read : readInput options input = .ok source)
    (halted : (checked options source).2 = .error halt) :
    run options input = ⟨.rejected, "", (checked options source).1.writeStatistics.written⟩ := by
  rw [run_of_read read]
  split
  · next is => rw [is]
  · next is =>
    rw [is] at halted
    exact absurd halted (by simp)

theorem run_of_acceptance {a : Analysis} (read : readInput options input = .ok source)
    (accepted : (checked options source).2 = .ok a) :
    run options input =
      ⟨.accepted, if options.printTypes then Listing.render a else "",
        (checked options source).1.writeStatistics.written⟩ := by
  rw [run_of_read read]
  split
  · next is =>
    rw [is] at accepted
    exact absurd accepted (by simp)
  · next is =>
    rw [is] at accepted ⊢
    rw [Except.ok.inj accepted]

/-! ## The main statement -/

/-- The exit code and the output of a run tell whether the program could be read, and then how it
stands. -/
structure Answers (options : Options) (input : Input) : Prop where
  unreadable : (run options input).verdict.exitCode = 2 ↔
    ∃ failure, readInput options input = .error failure
  rejected : (run options input).verdict.exitCode = 1 ↔
    ∃ source, readInput options input = .ok source ∧
      ((∃ v, (Program.ofSource options.input source).Violated options.maxDepth v) ∨
        ∃ n, (Program.ofSource options.input source).Faulty options.maxDepth n)
  accepted : (run options input).verdict.exitCode = 0 ↔
    ∃ source, readInput options input = .ok source ∧
      (Program.ofSource options.input source).Clean options.maxDepth
  output : (run options input).output ≠ "" ↔
    options.printTypes = true ∧ ∃ source, readInput options input = .ok source ∧
      (Program.ofSource options.input source).Clean options.maxDepth
  errorOutput : ∀ source, readInput options input = .ok source →
    (run options input).errorOutput = (checked options source).1.writeStatistics.written

theorem answers_of_failure {failure : Failure} (failed : readInput options input = .error failure) :
    Answers options input := by
  have unread : ∀ source, readInput options input ≠ .ok source := by
    intro source read
    exact absurd (failed.symm.trans read) (by simp)
  have verdict : (run options input).verdict = .unreadable := by rw [run_of_failure failed]
  have output : (run options input).output = "" := by rw [run_of_failure failed]
  constructor
  · simp [verdict, Verdict.exitCode, failed]
  · simp [verdict, Verdict.exitCode, unread]
  · simp [verdict, Verdict.exitCode, unread]
  · simp [output, unread]
  · exact fun source read => absurd read (unread source)

section
variable {s : Program.Standing}

/-- The verdict on a program that can be read follows from how it stands. -/
theorem verdict_of_stands (read : readInput options input = .ok source)
    (stands : (Program.ofSource options.input source).Stands options.maxDepth s) :
    (run options input).verdict = s.verdict := by
  cases s with
  | violated v => rw [run_of_halt read stands.result, Program.Standing.verdict]
  | faulty n => rw [run_of_halt read stands.result, Program.Standing.verdict]
  | clean =>
    obtain ⟨a, -, accepted⟩ := stands.result
    rw [run_of_acceptance read accepted, Program.Standing.verdict]

/-- There is output for a clean program only. -/
theorem output_of_stands (read : readInput options input = .ok source)
    (stands : (Program.ofSource options.input source).Stands options.maxDepth s) :
    (run options input).output ≠ "" ↔ options.printTypes = true ∧ s = .clean := by
  cases s with
  | violated v => simp [run_of_halt read stands.result]
  | faulty n => simp [run_of_halt read stands.result]
  | clean =>
    obtain ⟨a, -, accepted⟩ := stands.result
    rw [run_of_acceptance read accepted]
    simp [Listing.render_ne_empty]

theorem errorOutput_of_stands (read : readInput options input = .ok source)
    (stands : (Program.ofSource options.input source).Stands options.maxDepth s) :
    (run options input).errorOutput = (checked options source).1.writeStatistics.written := by
  cases s with
  | violated v => rw [run_of_halt read stands.result]
  | faulty n => rw [run_of_halt read stands.result]
  | clean =>
    obtain ⟨a, -, accepted⟩ := stands.result
    rw [run_of_acceptance read accepted]

end

theorem answers_of_read (read : readInput options input = .ok source) : Answers options input := by
  obtain ⟨s, stands, unique⟩ :=
    (Program.ofSource options.input source).existsUnique_stands options.maxDepth
  have clean : (∃ source, readInput options input = .ok source ∧
      (Program.ofSource options.input source).Clean options.maxDepth) ↔ s = .clean := by
    simp only [read, Except.ok.injEq, exists_eq_left']
    exact ⟨fun is => (unique .clean is).symm, fun is => by rwa [is] at stands⟩
  have rejected : (∃ source, readInput options input = .ok source ∧
      ((∃ v, (Program.ofSource options.input source).Violated options.maxDepth v) ∨
        ∃ n, (Program.ofSource options.input source).Faulty options.maxDepth n)) ↔
      s ≠ .clean := by
    simp only [read, Except.ok.injEq, exists_eq_left']
    constructor
    · rintro (⟨v, is⟩ | ⟨n, is⟩)
      · simp [← unique (.violated v) is]
      · simp [← unique (.faulty n) is]
    · intro other
      cases s with
      | violated v => exact Or.inl ⟨v, stands⟩
      | faulty n => exact Or.inr ⟨n, stands⟩
      | clean => exact absurd rfl other
  have verdict := verdict_of_stands read stands
  constructor
  · rw [verdict, read]
    cases s <;> simp [Program.Standing.verdict, Verdict.exitCode]
  · rw [verdict, rejected]
    cases s <;> simp [Program.Standing.verdict, Verdict.exitCode]
  · rw [verdict, clean]
    cases s <;> simp [Program.Standing.verdict, Verdict.exitCode]
  · rw [clean]
    exact output_of_stands read stands
  · intro other readOther
    rw [read, Except.ok.injEq] at readOther
    obtain rfl := readOther
    exact errorOutput_of_stands read stands

/-- **All verdicts of a run agree.**  A program stands in exactly one of three ways after a check,
and only a clean one is announced as a success.  The command tells by its exit code which way it is,
or that the input cannot be read, and it writes to the output for clean programs only, and only if
asked to.  Whenever it is carried out to its end, it ends with the exit code for the input that it
loaded. -/
theorem verdicts_agree :
    (∀ (p : Program) (m : Nat), (∃! s, p.Stands m s) ∧
      ((p.check m Sink.empty).1.closing = Sink.successLine ++ "\n" ↔ p.Clean m)) ∧
    (∀ options input, Answers options input) ∧
    (∀ (options : Options) (text : String),
      (run options (.bytes text.toUTF8)).verdict.exitCode = 2 ↔
        ∃ e, Source.Program.parse text options.maxDepth = .error e) ∧
    ∀ (options : Options) (code : UInt32), MonadAttach.CanReturn (runWith options) code →
      ∃ input, MonadAttach.CanReturn (loadInput options.input) input ∧
        code = (run options input).verdict.exitCode.toUInt32 := by
  have answers : ∀ options input, Answers options input := by
    intro options input
    cases read : readInput options input with
    | error failure => exact answers_of_failure read
    | ok source => exact answers_of_read read
  refine ⟨fun p m => ⟨p.existsUnique_stands m, p.closing_eq_success_iff m⟩, answers, ?_,
    fun options code => exitCode_of_runWith⟩
  intro options text
  rw [(answers options _).unreadable, readInput_text]
  cases Source.Program.parse text options.maxDepth with
  | error e => exact ⟨fun _ => ⟨e, rfl⟩, fun _ => ⟨_, rfl⟩⟩
  | ok source => exact ⟨fun ⟨_, failed⟩ => (nomatch failed), fun ⟨_, failed⟩ => (nomatch failed)⟩

end Command

end SelfTyped
