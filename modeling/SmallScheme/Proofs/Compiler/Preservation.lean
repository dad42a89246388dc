/-
This file shows that a compiled program displays what a session displays that runs the program, and
ends as the session ends, unless the session misses a procedure. There both agree exactly if the
operands of the application are harmless.
-/

import SmallScheme.Proofs.Compiler.Runs
import SmallScheme.Proofs.Session.Missing

namespace SmallScheme

/-- A session that misses no procedure may as well look procedures up after their operands. -/
theorem Session.agrees_performAll_operandsFirst (fuel : Nat) (program : Program)
    (session : Session) :
    Outcome.Agrees .firstMissing (· = ·) (· = ·) (run fuel program session)
      (performAll (evaluateIn .operandsFirst fuel) program.forms session) := by
  have allowed : Order.Allows .firstMissing .headFirst .operandsFirst :=
    .later fun name => Or.inr ⟨name, rfl⟩
  have mirrors : Mirrors .firstMissing (evaluate fuel) (evaluateIn .operandsFirst fuel) := by
    rw [← evaluateIn_headFirst]
    exact evaluateIn_mirrors (Or.inl rfl) allowed (Nat.le_refl fuel)
  rw [run_eq_performAll]
  exact follows_performAll_same mirrors program.forms session session rfl

namespace Compiler

/-- A compiled program ends as the session does and displays the same, whenever the session ends
with values or with an error other than a missing procedure. -/
theorem run_of_session_run {program : Program} {code : Code}
    (compiled : compile program = .ok code) (sink : Sink)
    (accepts : ∀ attempts text piece, sink.refuses attempts text piece = none) (fuel : Nat) :
    (∀ values session, Session.run fuel program (.fresh sink) = .ok values session →
      ∀ more, fuel ≤ more → ∃ machine, Machine.run more code = .ok () machine ∧
        session.sink.text = sink.text ++ machine.output) ∧
    (∀ error session, Session.run fuel program (.fresh sink) = .error error session →
      (∀ name, error ≠ .undefinedProcedure name) →
      ∀ more, fuel ≤ more → ∃ machine, Machine.run more code = .error error machine ∧
        session.sink.text = sink.text ++ machine.output) := by
  have late := Session.agrees_performAll_operandsFirst fuel program (.fresh sink)
  constructor
  · intro values session ran more enough
    rw [ran] at late
    have same := late.eq_of_unexcused (fun _ => id) (fun _ stopped => nomatch stopped)
    have forward := agrees_run_of_le compiled enough accepts
    rw [same] at forward
    obtain ⟨_, machine, ended, _, displayed⟩ := forward.exists_ok fun _ => id
    exact ⟨machine, ended, displayed⟩
  · intro error session ran known more enough
    rw [ran] at late
    have unexcused : ∀ stop, (Outcome.error error session : Outcome Session (List Datum)).stop? =
        some stop → ¬ Slack.firstMissing.first stop := by
      rintro _ ⟨rfl⟩ (missing | ⟨name, missing⟩)
      · exact nomatch missing
      · exact known name (Option.some.inj missing)
    have same := late.eq_of_unexcused (fun _ => id) unexcused
    have forward := agrees_run_of_le compiled enough accepts
    rw [same] at forward
    exact forward.exists_error (fun _ => id) nofun

/-- The loop of this program reads a name of its caller, and the program fails after a line. -/
def stepProgram : Program :=
  ⟨[.definition (.value "limit" (.constant (.integer 2))),
    .definition (.procedure ⟨"climb", ["n"], [], [], .application "if"
      [.application "=" [.identifier "n", .identifier "limit"], .identifier "step",
        .application "climb" [.application "+" [.identifier "n", .constant (.integer 1)]]]⟩),
    .definition (.procedure ⟨"start", ["step"], [], [],
      .application "climb" [.constant (.integer 0)]⟩),
    .expression (.application "display" [.application "start" [.constant (.integer 5)]]),
    .expression (.application "quotient" [.constant (.integer 1), .constant (.integer 0)])]⟩

/-- Both ways to run this program display the line and then fail. -/
theorem stepProgram_run :
    ∃ code, compile stepProgram = .ok code ∧
      (∃ session, Session.run 20 stepProgram (.fresh .unlimited) =
        .error .divisionByZero session ∧ session.sink.text = "5\n") ∧
      ∃ machine, Machine.run 20 code = .error .divisionByZero machine ∧
        machine.output = "5\n" := by
  obtain ⟨code, compiled⟩ : ∃ code, compile stepProgram = .ok code := ⟨_, rfl⟩
  obtain ⟨session, failed, shown⟩ : ∃ session, Session.run 20 stepProgram (.fresh .unlimited) =
      .error .divisionByZero session ∧ session.sink.text = "5\n" := ⟨_, rfl, rfl⟩
  have preserved := run_of_session_run compiled .unlimited (fun _ _ _ => rfl) 20
  obtain ⟨machine, ran, displayed⟩ := preserved.2 _ session failed nofun 20 (Nat.le_refl 20)
  refine ⟨code, compiled, ⟨session, failed, shown⟩, machine, ran, ?_⟩
  exact (String.empty_append.symm.trans displayed.symm).trans shown

/-- Where the session misses a procedure, the compiled program fails with the same error after the
same output exactly if the operands of the application are harmless. -/
theorem missing_iff_harmless {program : Program} {code : Code}
    (compiled : compile program = .ok code) (sink : Sink)
    (accepts : ∀ attempts text piece, sink.refuses attempts text piece = none) {fuel : Nat}
    {name : String} {after : Session}
    (failed : Session.run fuel program (.fresh sink) = .error (.undefinedProcedure name) after) :
    ∃ operands point,
      (Session.tracedRun fuel program (.fresh sink)).2.getLast? =
          some (.applies name operands point) ∧
        ((∃ more machine, Machine.run more code = .error (.undefinedProcedure name) machine ∧
            after.sink.text = sink.text ++ machine.output) ↔
          Session.Harmless name operands point) := by
  rw [← Session.run_tracedRun] at failed
  obtain ⟨operands, point, noted, harmless⟩ := Session.performAll_missing_iff failed
  refine ⟨operands, point, noted, ?_⟩
  rw [run_eq_error_iff compiled accepts]
  exact harmless

/-- A program that applies a procedure to the given operand before it defines the procedure. -/
def earlyProgram (operand : Expression) : Program :=
  ⟨[.expression (.application "display" [.constant (.integer 7)]),
    .expression (.application "f" [operand]),
    .definition (.procedure ⟨"f", ["x"], [], [], .identifier "x"⟩)]⟩

/-- A sum displays nothing, so that both ways to run the program agree. -/
theorem earlyProgram_sum_agrees :
    ∃ code, compile (earlyProgram (.application "+" [.constant (.integer 1)])) = .ok code ∧
      (∃ session, Session.run 9 (earlyProgram (.application "+" [.constant (.integer 1)]))
        (.fresh .unlimited) = .error (.undefinedProcedure "f") session ∧
          session.sink.text = "7\n") ∧
      ∃ more machine, Machine.run more code = .error (.undefinedProcedure "f") machine ∧
        machine.output = "7\n" := by
  obtain ⟨code, compiled⟩ : ∃ code,
      compile (earlyProgram (.application "+" [.constant (.integer 1)])) = .ok code := ⟨_, rfl⟩
  obtain ⟨session, failed, shown⟩ : ∃ session,
      Session.run 9 (earlyProgram (.application "+" [.constant (.integer 1)]))
        (.fresh .unlimited) = .error (.undefinedProcedure "f") session ∧
          session.sink.text = "7\n" := ⟨_, rfl, rfl⟩
  obtain ⟨operands, point, noted, agrees⟩ :=
    missing_iff_harmless compiled .unlimited (fun _ _ _ => rfl) failed
  have harmless : Session.Harmless "f" operands point := by
    cases noted
    exact ⟨9, _, rfl, .inl ⟨_, rfl⟩⟩
  obtain ⟨more, machine, ran, displayed⟩ := agrees.mpr harmless
  refine ⟨code, compiled, ⟨session, failed, shown⟩, more, machine, ran, ?_⟩
  exact (String.empty_append.symm.trans displayed.symm).trans shown

/-- An operand that displays is displayed by the compiled program and not by the session. -/
theorem earlyProgram_display_differs :
    ∃ code session machine,
      compile (earlyProgram (.application "display" [.constant (.integer 1)])) = .ok code ∧
        Session.run 9 (earlyProgram (.application "display" [.constant (.integer 1)]))
          (.fresh .unlimited) = .error (.undefinedProcedure "f") session ∧
        Machine.run 9 code = .error (.undefinedProcedure "f") machine ∧
        session.sink.text = "7\n" ∧ machine.output = "7\n1\n" :=
  ⟨_, _, _, rfl, rfl, rfl, rfl, rfl⟩

end Compiler

end SmallScheme
