/-
This file shows that a program stops at its first failing form, which leaves the bindings as the forms
before it made them.
-/

import SmallScheme.Proofs.Program.Groups
import SmallScheme.Proofs.Session.Effects
import SmallScheme.Proofs.Session.Forms
import SmallScheme.Proofs.Session.Register

namespace SmallScheme

/-- A definition adds no frame. -/
theorem Environment.depth_defineVariable (environment : Environment) (name : String)
    (value : Datum) : (environment.defineVariable name value).depth = environment.depth := by
  unfold Environment.defineVariable Environment.depth
  cases environment.frames <;> rfl

/-- A procedure adds no frame. -/
theorem Environment.depth_register (environment : Environment) (procedure : Procedure) :
    (environment.register procedure).depth = environment.depth := by
  rw [register_eq_defineAll, depth, frames_defineAll, depth]

namespace Session

/-- However an evaluation ends, the bindings are what they were. -/
theorem environment_of_evaluate (fuel : Nat) (expression : Expression) (session : Session) :
    (evaluate fuel expression session).Ends (·.environment = session.environment) := by
  rw [← evaluateIn_headFirst]
  exact environment_of_evaluateIn .headFirst fuel expression session

/-- A success keeps the depth, and a failure keeps all bindings. -/
def Keeps {A : Type} (environment : Environment) : Outcome Session A → Prop
  | .ok _ after => after.environment.depth = environment.depth
  | .error _ after => after.environment = environment
  | .outOfFuel => True

/-- Whatever follows an evaluation may bind names in the frame that there is, but may not fail. -/
theorem keeps_evaluate_bind {A : Type} {next : Datum → Run Session A}
    (ends : ∀ value session, ∃ result after, next value session = .ok result after ∧
      after.environment.depth = session.environment.depth)
    (fuel : Nat) (expression : Expression) (session : Session) :
    Keeps session.environment ((evaluate fuel expression >>= next) session) := by
  have same := environment_of_evaluate fuel expression session
  rw [Run.bind_apply]
  cases evaluated : evaluate fuel expression session with
  | outOfFuel => trivial
  | error error middle =>
      rw [evaluated] at same
      exact same
  | ok value middle =>
      rw [evaluated] at same
      obtain ⟨result, after, ended, deep⟩ := ends value middle
      dsimp only
      rw [ended]
      exact deep.trans (congrArg Environment.depth same)

/-- A program of one form runs the form. -/
theorem run_singleton (fuel : Nat) (form : Form) :
    run fuel ⟨[form]⟩ = perform (evaluate fuel) form := by
  funext session
  rw [run_eq_performAll, performAll, Run.bind_apply]
  cases perform (evaluate fuel) form session with
  | ok values after => simp [performAll, Run.bind_apply, Run.pure_apply]
  | error error after => rfl
  | outOfFuel => rfl

/-- A form that is no group evaluates at most one expression before it changes the bindings. -/
theorem keeps_run_singleton {form : Form} (single : form.isGroup = false) (fuel : Nat)
    (session : Session) : Keeps session.environment (run fuel ⟨[form]⟩ session) := by
  rw [run_singleton]
  cases form with
  | expression expression =>
      exact keeps_evaluate_bind (fun value after => ⟨[value], after, rfl, rfl⟩) fuel expression session
  | definition definition =>
      cases definition with
      | value name expression =>
          rw [perform, performDefinition, bindValue, Run.bind_assoc]
          refine keeps_evaluate_bind (fun value after => ⟨[], _, rfl, ?_⟩) fuel expression session
          exact Environment.depth_defineVariable after.environment name value
      | procedure procedure => exact Environment.depth_register session.environment procedure
  | begin forms => cases single

/-- Forms in two parts succeed if the first part does, and then the second. -/
theorem run_append_eq_ok {fuel : Nat} {first second : List Form} {session after : Session}
    {values : List Datum} :
    run fuel ⟨first ++ second⟩ session = .ok values after ↔
      ∃ early middle late, run fuel ⟨first⟩ session = .ok early middle ∧
        run fuel ⟨second⟩ middle = .ok late after ∧ early ++ late = values := by
  rw [run_append, Run.bind_eq_ok]
  constructor
  · rintro ⟨early, middle, first, ended⟩
    obtain ⟨late, last, second, returned⟩ := Run.bind_eq_ok.mp ended
    cases returned
    exact ⟨early, middle, late, first, second, rfl⟩
  · rintro ⟨early, middle, late, first, second, rfl⟩
    exact ⟨early, middle, first, Run.bind_eq_ok.mpr ⟨late, after, second, rfl⟩⟩

/-- Forms in two parts fail in the first part, or in the second after the first. -/
theorem run_append_eq_error {fuel : Nat} {first second : List Form} {session after : Session}
    {error : RunError} :
    run fuel ⟨first ++ second⟩ session = .error error after ↔
      run fuel ⟨first⟩ session = .error error after ∨
        ∃ values middle, run fuel ⟨first⟩ session = .ok values middle ∧
          run fuel ⟨second⟩ middle = .error error after := by
  simp only [run_append, Run.bind_eq_error, Run.pure_apply, reduceCtorEq, and_false,
    exists_false, or_false]

/-- The forms run one after the other, and each keeps the depth. -/
theorem depth_of_run {fuel : Nat} {forms : List Form} {session after : Session}
    {values : List Datum} (single : ∀ form ∈ forms, form.isGroup = false)
    (ended : run fuel ⟨forms⟩ session = .ok values after) :
    after.environment.depth = session.environment.depth := by
  induction forms generalizing session values with
  | nil =>
      cases ended
      rfl
  | cons form rest ih =>
      rw [List.forall_mem_cons] at single
      rw [← List.singleton_append, run_append_eq_ok] at ended
      obtain ⟨early, middle, late, first, later, _⟩ := ended
      have kept := keeps_run_singleton single.1 fuel session
      rw [first] at kept
      exact (ih single.2 later).trans kept

/-- A program that fails stops at one of its forms, and those before it have run. -/
theorem exists_failing_form {fuel : Nat} {forms : List Form} {session after : Session}
    {error : RunError} (failed : run fuel ⟨forms⟩ session = .error error after) :
    ∃ before form rest values middle, forms = before ++ form :: rest ∧
      run fuel ⟨before⟩ session = .ok values middle ∧
      run fuel ⟨[form]⟩ middle = .error error after := by
  induction forms generalizing session with
  | nil => cases failed
  | cons form rest ih =>
      rw [← List.singleton_append, run_append_eq_error] at failed
      rcases failed with here | ⟨early, middle, first, later⟩
      · exact ⟨[], form, rest, [], session, rfl, rfl, here⟩
      · obtain ⟨before, failing, others, late, last, rfl, ran, stopped⟩ := ih later
        refine ⟨form :: before, failing, others, early ++ late, last, rfl, ?_, stopped⟩
        exact run_append_eq_ok.mpr ⟨early, middle, late, first, ran, rfl⟩

/-- With the groups taken apart, the forms before the failing one have run, and the failing one leaves
their bindings and no frame. What comes after it does not matter. -/
theorem failing_form_leaves_no_trace {fuel : Nat} {program : Program} {session after : Session}
    {error : RunError} (outside : session.environment.depth = 0)
    (failed : run fuel program session = .error error after) :
    ∃ before form rest values middle,
      Form.allLeaves program.forms = before ++ form :: rest ∧
      run fuel ⟨before⟩ session = .ok values middle ∧
      run fuel ⟨[form]⟩ middle = .error error after ∧
      after.environment = middle.environment ∧ after.environment.depth = 0 ∧
      ∀ others, run fuel ⟨before ++ form :: others⟩ session = .error error after := by
  rw [← run_flatten] at failed
  obtain ⟨before, form, rest, values, middle, parts, ran, stopped⟩ := exists_failing_form failed
  have single : ∀ leaf ∈ before ++ form :: rest, leaf.isGroup = false := by
    intro leaf member
    rw [← parts] at member
    exact Form.isGroup_of_mem_allLeaves member
  rw [List.forall_mem_append, List.forall_mem_cons] at single
  have kept := keeps_run_singleton single.2.1 fuel middle
  rw [stopped] at kept
  have bound : after.environment = middle.environment := kept
  have deep : after.environment.depth = 0 := by
    rw [bound, depth_of_run single.1 ran, outside]
  refine ⟨before, form, rest, values, middle, parts, ran, stopped, bound, deep, ?_⟩
  intro others
  have cancelled : run fuel ⟨[form] ++ others⟩ middle = .error error after :=
    run_append_eq_error.mpr (.inl stopped)
  exact run_append_eq_error.mpr (.inr ⟨values, middle, ran, cancelled⟩)

/-- The second definition of `a` fails inside a call, in the middle of a write. -/
def brokenProgram : Program :=
  ⟨[.definition (.value "a" (.constant (.integer 15))),
    .begin [
      .definition (.procedure ⟨"tell", ["n"],
        [.value "m" (.application "+" [.identifier "n", .identifier "a"])],
        [.application "display" [.identifier "m"]], .identifier "m"⟩),
      .begin [
        .expression (.application "display" [.identifier "a"]),
        .definition (.value "a" (.application "tell" [.constant (.integer 1)]))],
      .definition (.value "b" (.constant (.integer 2)))],
    .expression (.application "display" [.identifier "b"])]⟩

/-- A sink that breaks after the first character of its third piece. -/
def brokenSink : Sink :=
  ⟨fun attempts _ _ => if attempts = 2 then some ⟨"broken pipe", 1⟩ else none, 0, ""⟩

/-- The failing definition leaves the first value of its name, and what was written before the
break. -/
theorem brokenProgram_leaves_no_trace :
    ∃ after, run 6 brokenProgram (fresh brokenSink) = .error (.output "broken pipe") after ∧
      after.sink.text = "15\n1" ∧ after.environment.lookup "a" = .ok (.integer 15) ∧
      ∃ before form rest values middle,
        Form.allLeaves brokenProgram.forms = before ++ form :: rest ∧
        run 6 ⟨before⟩ (fresh brokenSink) = .ok values middle ∧
        run 6 ⟨[form]⟩ middle = .error (.output "broken pipe") after ∧
        after.environment = middle.environment ∧ after.environment.depth = 0 ∧
        ∀ others, run 6 ⟨before ++ form :: others⟩ (fresh brokenSink) =
          .error (.output "broken pipe") after := by
  obtain ⟨after, failed, shown, kept⟩ : ∃ after,
      run 6 brokenProgram (fresh brokenSink) = .error (.output "broken pipe") after ∧
        after.sink.text = "15\n1" ∧ after.environment.lookup "a" = .ok (.integer 15) :=
    ⟨_, rfl, rfl, rfl⟩
  exact ⟨after, failed, shown, kept, failing_form_leaves_no_trace rfl failed⟩

end Session

end SmallScheme
