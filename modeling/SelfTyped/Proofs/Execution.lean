/-
SelfTyped.Proofs.Execution — the command does what is decided for its input.

`Progress.analyse` is one text for two uses.  With nothing around the phases it
is `Progress.ofInput`, on which all verdicts rest; the command runs it with the
clock and the log around the phases.  What a computation can give back is said
by `MonadAttach.CanReturn`, in any monad that follows the laws.  There the
surroundings leave no trace in what is found (`canReturn_analyse`): whatever
input the file turns out to be, an analysis ends as is decided for it, and the
phases whose times are kept are those that were started.

That the actions of the command follow the laws is shown first.
-/
import SelfTyped.Main
import SelfTyped.Proofs.Reports

namespace SelfTyped

open MonadAttach (CanReturn)

/-! ## Actions -/

namespace EST

variable {ε σ α β : Type}

theorem bind_apply (x : EST ε σ α) (f : α → EST ε σ β) (s : Void σ) :
    (x >>= f) s = match x s with
      | .ok a s => f a s
      | .error e s => .error e s := rfl

instance lawfulMonad : LawfulMonad (EST ε σ) :=
  LawfulMonad.mk' _
    (fun x => by
      funext s
      change (match x s with | .ok a s => EST.Out.ok a s | .error e s => .error e s) = x s
      cases x s <;> rfl)
    (fun _ _ => rfl)
    (fun x f g => by
      funext s
      simp only [bind_apply]
      cases x s <;> rfl)

instance lawfulMonadAttach : LawfulMonadAttach (EST ε σ) where
  map_attach := by
    intro α x
    funext s
    rw [map_eq_pure_bind, bind_apply]
    simp only [MonadAttach.attach]
    split
    · next attached =>
      split at attached
      · next ran =>
        cases attached
        exact ran.symm
      · cases attached
    · next attached =>
      split at attached
      · cases attached
      · next ran =>
        cases attached
        exact ran.symm
  canReturn_map_imp := by
    rintro α P x a ⟨s, s', ran⟩
    rw [map_eq_pure_bind, bind_apply] at ran
    split at ran
    · next a' _ _ =>
      cases ran
      exact a'.2
    · cases ran

end EST

instance lawfulActions : LawfulMonad IO :=
  inferInstanceAs (LawfulMonad (EST IO.Error IO.RealWorld))

instance lawfulReturns : LawfulMonadAttach IO :=
  inferInstanceAs (LawfulMonadAttach (EST IO.Error IO.RealWorld))

/-! ## Computations with a state -/

section

variable {m : Type → Type} [Monad m] [LawfulMonad m] [MonadAttach m] [LawfulMonadAttach m]
  {α β σ : Type} {a b : α} {s s' : σ}

namespace StateT

theorem canReturn_bind {x : StateT σ m α} {f : α → StateT σ m β} {b : β}
    (returned : CanReturn ((x >>= f).run s) (b, s')) :
    ∃ a between, CanReturn (x.run s) (a, between) ∧ CanReturn ((f a).run between) (b, s') := by
  rw [StateT.run_bind] at returned
  obtain ⟨⟨a, between⟩, first, second⟩ := LawfulMonadAttach.canReturn_bind_imp' returned
  exact ⟨a, between, first, second⟩

theorem canReturn_pure (returned : CanReturn ((pure a : StateT σ m α).run s) (b, s')) :
    b = a ∧ s' = s := by
  rw [StateT.run_pure] at returned
  have same := LawfulMonadAttach.eq_of_canReturn_pure returned
  exact ⟨(congrArg Prod.fst same).symm, (congrArg Prod.snd same).symm⟩

theorem canReturn_lift {x : m α}
    (returned : CanReturn ((monadLift x : StateT σ m α).run s) (a, s')) :
    CanReturn x a ∧ s' = s := by
  rw [StateT.run_monadLift] at returned
  obtain ⟨a', ran, rest⟩ := LawfulMonadAttach.canReturn_bind_imp' returned
  have same := LawfulMonadAttach.eq_of_canReturn_pure rest
  cases same
  exact ⟨ran, rfl⟩

theorem canReturn_map {x : StateT σ m α} {f : α → β} {b : β}
    (returned : CanReturn ((f <$> x).run s) (b, s')) :
    ∃ a, CanReturn (x.run s) (a, s') ∧ b = f a := by
  rw [map_eq_pure_bind] at returned
  obtain ⟨a, _, ran, rest⟩ := canReturn_bind returned
  obtain ⟨rfl, rfl⟩ := canReturn_pure rest
  exact ⟨a, ran, rfl⟩

end StateT

end

namespace Command

/-! ## Phases -/

section

variable {m : Type → Type} [Monad m] [LawfulMonad m] [MonadAttach m] [LawfulMonadAttach m]
  {clock : m Nat} {note : String → m Unit} {options : Options} {spans after : List Timing.Span}

/-- A phase gives what its work gives, and its span is kept after those of phases inside it. -/
theorem canReturn_phase {α : Type} {label : String} {work : Unit → StateT (List Timing.Span) m α}
    {a : α} (returned : CanReturn (((Surroundings.timed clock note).phase label work).run spans)
      (a, after)) :
    ∃ inside start stop, CanReturn ((work ()).run spans) (a, inside) ∧
      after = inside ++ [⟨label, start, stop⟩] := by
  obtain ⟨start, _, started, working⟩ := StateT.canReturn_bind returned
  obtain ⟨-, rfl⟩ := StateT.canReturn_lift started
  obtain ⟨result, inside, worked, stopping⟩ := StateT.canReturn_bind working
  obtain ⟨stop, _, stopped, keeping⟩ := StateT.canReturn_bind stopping
  obtain ⟨-, rfl⟩ := StateT.canReturn_lift stopped
  obtain ⟨_, _, kept, ending⟩ := StateT.canReturn_bind keeping
  obtain ⟨rfl, rfl⟩ := StateT.canReturn_pure ending
  cases LawfulMonadAttach.eq_of_canReturn_pure kept
  exact ⟨_, start, stop, worked, rfl⟩

theorem canReturn_phase_pure {α : Type} {label : String} {a b : α}
    (returned : CanReturn (((Surroundings.timed clock note).phase label fun _ => pure a).run spans)
      (b, after)) :
    b = a ∧ ∃ start stop, after = spans ++ [⟨label, start, stop⟩] := by
  obtain ⟨_, start, stop, worked, rfl⟩ := canReturn_phase returned
  obtain ⟨rfl, rfl⟩ := StateT.canReturn_pure worked
  exact ⟨rfl, start, stop, rfl⟩

theorem canReturn_note {step : String} {u : Unit}
    (returned : CanReturn (((Surroundings.timed clock note).note step).run spans) (u, after)) :
    after = spans :=
  (StateT.canReturn_lift returned).2

/-- The analysis of a program that was read ends as is decided for the program. -/
theorem canReturn_analyseSource {source : Source.Program} {progress : Progress}
    (returned : CanReturn
      ((Progress.analyseSource (.timed clock note) options source).run spans) (progress, after))
    (earlier : spans.map Timing.Span.label = [phaseLabels.read]) :
    progress =
        .ofAnalysis ((Program.ofSource options.input source).analyse options.maxDepth) ∧
      after.map Timing.Span.label = progress.phases := by
  obtain ⟨_, _, noted, building⟩ := StateT.canReturn_bind returned
  cases canReturn_note noted
  obtain ⟨_, _, hierarchyPhase, afterBuilding⟩ := StateT.canReturn_bind building
  obtain ⟨rfl, _, _, rfl⟩ := canReturn_phase_pure hierarchyPhase
  cases built : Hierarchy.build (Program.ofSource options.input source) with
  | error violation =>
    rw [built] at afterBuilding
    obtain ⟨rfl, rfl⟩ := StateT.canReturn_pure afterBuilding
    rw [Program.analyse_eq_error_iff.mpr built, List.map_append, earlier]
    exact ⟨rfl, rfl⟩
  | ok h =>
    rw [built] at afterBuilding
    obtain ⟨_, _, noted, typing⟩ := StateT.canReturn_bind afterBuilding
    cases canReturn_note noted
    obtain ⟨_, _, typingPhase, afterTyping⟩ := StateT.canReturn_bind typing
    obtain ⟨rfl, _, _, rfl⟩ := canReturn_phase_pure typingPhase
    obtain ⟨_, _, noted, ending⟩ := StateT.canReturn_bind afterTyping
    cases canReturn_note noted
    obtain ⟨rfl, rfl⟩ := StateT.canReturn_pure ending
    rw [Program.analyse_of_build built, List.map_append, List.map_append, earlier]
    exact ⟨rfl, rfl⟩

/-- **The surroundings leave no trace in what is found.**  An analysis with a clock and a log around
its phases ends as is decided for the input that it loaded, and keeps the spans of the phases that
were started. -/
theorem canReturn_analyse {load : m Input} {progress : Progress}
    (returned : CanReturn ((Progress.analyse (.timed clock note) options (monadLift load)).run [])
      (progress, spans)) :
    ∃ input, CanReturn load input ∧ progress = Progress.ofInput options input ∧
      spans.map Timing.Span.label = progress.phases := by
  obtain ⟨_, _, reading, afterReading⟩ := StateT.canReturn_bind returned
  obtain ⟨_, _, _, loading, rfl⟩ := canReturn_phase reading
  obtain ⟨input, load, rfl⟩ := StateT.canReturn_map loading
  obtain ⟨loaded, rfl⟩ := StateT.canReturn_lift load
  refine ⟨input, loaded, ?_⟩
  cases read : readInput options input with
  | error failure =>
    rw [read] at afterReading
    obtain ⟨rfl, rfl⟩ := StateT.canReturn_pure afterReading
    rw [Progress.ofInput_eq, read]
    exact ⟨rfl, rfl⟩
  | ok source =>
    rw [read] at afterReading
    rw [Progress.ofInput_eq, read]
    exact canReturn_analyseSource afterReading rfl

end

/-! ## The command -/

/-- **The exit code of the command is the one decided for the input that it loaded.** -/
theorem exitCode_of_runWith {options : Options} {code : UInt32}
    (returned : CanReturn (runWith options) code) :
    ∃ input, CanReturn (loadInput options.input) input ∧
      code = (run options input).verdict.exitCode.toUInt32 := by
  obtain ⟨env, -, analysing⟩ := LawfulMonadAttach.canReturn_bind_imp' returned
  obtain ⟨⟨progress, spans⟩, analysed, writing⟩ :=
    LawfulMonadAttach.canReturn_bind_imp' analysing
  obtain ⟨input, loaded, rfl, -⟩ := canReturn_analyse analysed
  obtain ⟨-, -, writing⟩ := LawfulMonadAttach.canReturn_bind_imp' writing
  obtain ⟨-, -, timing⟩ := LawfulMonadAttach.canReturn_bind_imp' writing
  obtain ⟨-, -, ending⟩ := LawfulMonadAttach.canReturn_bind_imp' timing
  exact ⟨input, loaded, (LawfulMonadAttach.eq_of_canReturn_pure ending).symm⟩

end Command

end SelfTyped
