/-
This file evaluates applications in either order: the procedure is looked up before the operands
are evaluated, or after them. Evaluations in environments that answer alike stay in step.
-/

import SmallScheme.Proofs.Agreement
import SmallScheme.Session.Evaluate

namespace SmallScheme

namespace Environment

/-- The two environments answer every question about a name alike. -/
structure Alike (first second : Environment) : Prop where
  procedures : ∀ name, first.procedure? name = second.procedure? name
  bindings : ∀ name, first.binding? name = second.binding? name

/-- An environment answers like itself. -/
theorem Alike.refl (environment : Environment) : Alike environment environment :=
  ⟨fun _ => rfl, fun _ => rfl⟩

/-- The answers are alike from either side. -/
theorem Alike.symm {first second : Environment} (alike : Alike first second) :
    Alike second first :=
  ⟨fun name => (alike.procedures name).symm, fun name => (alike.bindings name).symm⟩

/-- The innermost frame answers first. -/
theorem binding?_pushFrame (environment : Environment) (frame : Table Datum) (name : String) :
    (environment.pushFrame frame).binding? name =
      (frame.find? name).or (environment.binding? name) := by
  unfold binding? pushFrame
  rw [List.findSome?_cons]
  cases frame.find? name <;> rfl

/-- One more frame on both sides keeps the answers alike. -/
theorem Alike.pushFrame {first second : Environment} (alike : Alike first second)
    (frame : Table Datum) : Alike (first.pushFrame frame) (second.pushFrame frame) where
  procedures := alike.procedures
  bindings name := by rw [binding?_pushFrame, binding?_pushFrame, alike.bindings name]

/-- Environments that answer alike find the same value or the same error. -/
theorem Alike.lookup {first second : Environment} (alike : Alike first second) (name : String) :
    first.lookup name = second.lookup name := by
  unfold Environment.lookup
  rw [alike.bindings name]

/-- Leaving the frame of a call gives the environment of its caller. -/
theorem popFrame_pushFrame (environment : Environment) (frame : Table Datum) :
    (environment.pushFrame frame).popFrame = environment := rfl

/-- A definition inside a call goes into the frame of the call. -/
theorem defineVariable_pushFrame (environment : Environment) (frame : Table Datum) (name : String)
    (value : Datum) :
    (environment.pushFrame frame).defineVariable name value =
      environment.pushFrame (frame.insert name value) := rfl

end Environment

namespace Session

/-- Whether an application looks its procedure up before or after its operands are evaluated. -/
inductive Order where
  | headFirst
  | operandsFirst

/-- Calls what an application found with the values of its operands. -/
def invoke (recur : Expression → Run Session Datum) (arguments : List Datum) :
    Callable → Run Session Datum
  | .builtin builtin => writing (apply builtin arguments)
  | .code code => callCode recur code arguments

/-- An application in the given order. -/
def applyIn (order : Order) (recur : Expression → Run Session Datum) (procedure : String)
    (operands : List Expression) : Run Session Datum :=
  match order with
  | .headFirst => do
      let callable ← Run.read (findProcedure procedure)
      let arguments ← Run.all recur operands
      invoke recur arguments callable
  | .operandsFirst => do
      let arguments ← Run.all recur operands
      let callable ← Run.read (findProcedure procedure)
      invoke recur arguments callable

/-- One level of evaluation with applications in the given order. -/
def evaluateWithIn (order : Order) (recur : Expression → Run Session Datum) :
    Expression → Run Session Datum
  | .constant literal => Run.ofExcept (Datum.ofLiteral literal)
  | .quotation quoted => Run.ofExcept (Datum.ofQuoted quoted)
  | .identifier name => Run.read (·.environment.lookup name)
  | .application procedure operands =>
      if procedure = "if" then conditional recur operands
      else applyIn order recur procedure operands

/-- An evaluation with applications in the given order. -/
def evaluateIn (order : Order) : Nat → Expression → Run Session Datum
  | 0, _ => Run.outOfFuel
  | fuel + 1, expression => evaluateWithIn order (evaluateIn order fuel) expression

/-- A session applies procedures head first. -/
theorem applyIn_headFirst (recur : Expression → Run Session Datum) (procedure : String)
    (operands : List Expression) :
    applyIn .headFirst recur procedure operands = applyProcedure recur procedure operands := by
  unfold applyIn applyProcedure
  congr

/-- One level of evaluation in a session is head first. -/
theorem evaluateWithIn_headFirst (recur : Expression → Run Session Datum)
    (expression : Expression) :
    evaluateWithIn .headFirst recur expression = evaluateWith recur expression := by
  cases expression with
  | application procedure operands =>
      rw [evaluateWithIn, evaluateWith, applyIn_headFirst]
  | _ => rfl

/-- A session looks procedures up first. -/
theorem evaluateIn_headFirst (fuel : Nat) : evaluateIn .headFirst fuel = evaluate fuel := by
  induction fuel with
  | zero => rfl
  | succ fuel ih =>
      funext expression
      rw [evaluateIn, ih, evaluateWithIn_headFirst]
      rfl

/-- Both sessions stand in given environments and have written the same. -/
structure InStep (first second : Environment) (session other : Session) : Prop where
  first : session.environment = first
  second : other.environment = second
  sink : session.sink = other.sink

/-- Both sessions are inside a call with the same frame. -/
def InCall (first second : Environment) (session other : Session) : Prop :=
  ∃ frame, InStep (first.pushFrame frame) (second.pushFrame frame) session other

/-- The two evaluators stay in step from all environments that answer alike. -/
def Mirrors (slack : Slack) (recur other : Expression → Run Session Datum) : Prop :=
  ∀ expression first second, Environment.Alike first second →
    Run.Follows slack (· = ·) (InStep first second) (InStep first second)
      (recur expression) (other expression)

variable {slack : Slack} {first second : Environment}
  {recur other : Expression → Run Session Datum}

/-- A write on both sides keeps the sessions in step. -/
theorem follows_writing {A : Type} (run : Run Sink A) :
    Run.Follows slack (· = ·) (InStep first second) (InStep first second)
      (writing run) (writing run) := by
  intro session mate step
  obtain ⟨left, right, sinks⟩ := step
  unfold writing Run.within
  rw [sinks]
  cases run mate.sink with
  | ok value sink => exact .inl ⟨rfl, left, right, rfl⟩
  | error error sink => exact .inl ⟨rfl, left, right, rfl⟩
  | outOfFuel => exact .inl trivial

/-- A result from outside keeps the sessions in step. -/
theorem follows_ofExcept {A : Type} (result : Except RunError A) :
    Run.Follows slack (· = ·) (InStep first second) (InStep first second)
      (Run.ofExcept result) (Run.ofExcept result) := by
  cases result with
  | ok value => exact Run.follows_pure rfl
  | error error => exact Run.follows_fail error

/-- Both sessions find the same procedure, or both miss it. -/
theorem follows_findProcedure (alike : Environment.Alike first second) (name : String) :
    Run.Follows slack (· = ·) (InStep first second) (InStep first second)
      (Run.read (findProcedure name)) (Run.read (findProcedure name)) := by
  apply Run.follows_read
  intro session mate step
  unfold findProcedure
  rw [step.first, step.second, alike.procedures name]
  cases second.procedure? name with
  | some callable => exact .inl ⟨callable, callable, rfl, rfl, rfl⟩
  | none => exact .inr ⟨_, rfl, rfl⟩

/-- Both sessions find the same value of a name, or neither finds one. -/
theorem follows_lookup (alike : Environment.Alike first second) (name : String) :
    Run.Follows slack (· = ·) (InStep first second) (InStep first second)
      (Run.read (·.environment.lookup name)) (Run.read (·.environment.lookup name)) := by
  apply Run.follows_read
  intro session mate step
  rw [step.first, step.second, alike.lookup name]
  cases second.lookup name with
  | ok value => exact .inl ⟨value, value, rfl, rfl, rfl⟩
  | error error => exact .inr ⟨error, rfl, rfl⟩

/-- Operands stay in step, and have one value each. -/
theorem follows_operands (mirrors : Mirrors slack recur other)
    (alike : Environment.Alike first second) (operands : List Expression) :
    Run.Follows slack (fun values mates => values = mates ∧ values.length = operands.length)
      (InStep first second) (InStep first second)
      (Run.all recur operands) (Run.all other operands) := by
  have collected := Run.follows_all_same fun operand (_ : operand ∈ operands) =>
    mirrors operand first second alike
  rw [List.forall₂_eq_eq_eq] at collected
  exact collected

/-- A conditional stays in step. -/
theorem follows_conditional (mirrors : Mirrors slack recur other)
    (alike : Environment.Alike first second) (operands : List Expression) :
    Run.Follows slack (· = ·) (InStep first second) (InStep first second)
      (conditional recur operands) (conditional other operands) := by
  unfold conditional
  split
  · rename_i condition consequent alternative
    refine Run.follows_bind (mirrors condition first second alike) ?_ fun _ _ step => step
    rintro value _ rfl
    cases value.isTrue
    · exact mirrors alternative first second alike
    · exact mirrors consequent first second alike
  · exact Run.follows_fail _

/-- An internal variable is bound in the same frame on both sides. -/
theorem follows_bindValue (mirrors : Mirrors slack recur other)
    (alike : Environment.Alike first second) (definition : String × Expression) :
    Run.Follows slack (fun _ _ => True) (InCall first second) (InCall first second)
      (bindValue recur definition) (bindValue other definition) := by
  rintro session mate ⟨frame, step⟩
  have evaluated := mirrors definition.2 _ _ (alike.pushFrame frame)
  refine Run.follows_bind evaluated ?_ (fun _ _ inside => ⟨frame, inside⟩) session mate step
  rintro value _ rfl
  apply Run.follows_update
  intro inner outer inside
  refine ⟨frame.insert definition.1 value, ?_, ?_, inside.sink⟩
  · rw [onEnvironment, inside.first, Environment.defineVariable_pushFrame]
  · rw [onEnvironment, inside.second, Environment.defineVariable_pushFrame]

/-- Inside a call with the same frame an expression stays in step. -/
theorem follows_inCall (mirrors : Mirrors slack recur other)
    (alike : Environment.Alike first second) (expression : Expression) :
    Run.Follows slack (· = ·) (InCall first second) (InCall first second)
      (recur expression) (other expression) := by
  rintro session mate ⟨frame, step⟩
  have evaluated := mirrors expression _ _ (alike.pushFrame frame) session mate step
  exact evaluated.weaken (fun _ _ => id) fun _ _ inside => ⟨frame, inside⟩

/-- The body of a call stays in step. -/
theorem follows_callBody (mirrors : Mirrors slack recur other)
    (alike : Environment.Alike first second) (procedure : Procedure) :
    Run.Follows slack (· = ·) (InCall first second) (InCall first second)
      (callBody recur procedure) (callBody other procedure) := by
  unfold callBody
  refine Run.follows_bind (Run.follows_each_same ?_) ?_ fun _ _ inside => inside
  · intro definition _
    exact follows_bindValue mirrors alike definition
  intro _ _ _
  refine Run.follows_bind (Run.follows_each_same ?_) ?_ fun _ _ inside => inside
  · intro effect _
    exact Run.follows_bind (follows_inCall mirrors alike effect)
      (fun _ _ _ => Run.follows_pure trivial) fun _ _ inside => inside
  intro _ _ _
  exact follows_inCall mirrors alike procedure.body

/-- A call leaves both environments as they were. -/
theorem follows_callCode (mirrors : Mirrors slack recur other)
    (alike : Environment.Alike first second) (procedure : Procedure) (arguments : List Datum) :
    Run.Follows slack (· = ·) (InStep first second) (InStep first second)
      (callCode recur procedure arguments) (callCode other procedure arguments) := by
  unfold callCode
  split
  · refine Run.follows_between (InCall first second) (InCall first second) ?_
      (follows_callBody mirrors alike procedure) ?_
    · intro session mate step
      refine ⟨.ofPairs (procedure.params.zip arguments), ?_, ?_, step.sink⟩
      · rw [onEnvironment, step.first]
      · rw [onEnvironment, step.second]
    · rintro session mate ⟨frame, inside⟩
      refine ⟨?_, ?_, inside.sink⟩
      · rw [onEnvironment, inside.first, Environment.popFrame_pushFrame]
      · rw [onEnvironment, inside.second, Environment.popFrame_pushFrame]
  · exact Run.follows_fail _

/-- A call of what was found stays in step. -/
theorem follows_invoke (mirrors : Mirrors slack recur other)
    (alike : Environment.Alike first second) (arguments : List Datum) (callable : Callable) :
    Run.Follows slack (· = ·) (InStep first second) (InStep first second)
      (invoke recur arguments callable) (invoke other arguments callable) := by
  cases callable with
  | builtin builtin => exact follows_writing _
  | code procedure => exact follows_callCode mirrors alike procedure arguments

/-- What runs after a look-up that succeeds runs with the procedure found. -/
theorem read_findProcedure_bind {A : Type} {name : String} {callable : Callable} {session : Session}
    (found : session.environment.procedure? name = some callable)
    (next : Callable → Run Session A) :
    (Run.read (findProcedure name) >>= next) session = next callable session := by
  rw [Run.bind_apply, Run.read, findProcedure, found]
  rfl

/-- Nothing runs after a look-up that fails. -/
theorem read_findProcedure_bind_none {A : Type} {name : String} {session : Session}
    (missing : session.environment.procedure? name = none) (next : Callable → Run Session A) :
    (Run.read (findProcedure name) >>= next) session =
      .error (.undefinedProcedure name) session := by
  rw [Run.bind_apply, Run.read, findProcedure, missing]
  rfl

/-- Applications in one order stay in step. -/
theorem follows_applyIn_same (order : Order) (mirrors : Mirrors slack recur other)
    (alike : Environment.Alike first second) (procedure : String) (operands : List Expression) :
    Run.Follows slack (· = ·) (InStep first second) (InStep first second)
      (applyIn order recur procedure operands) (applyIn order other procedure operands) := by
  cases order with
  | headFirst =>
      refine Run.follows_bind (follows_findProcedure alike procedure) ?_ fun _ _ step => step
      rintro callable _ rfl
      refine Run.follows_bind (follows_operands mirrors alike operands) ?_ fun _ _ step => step
      rintro arguments _ ⟨rfl, _⟩
      exact follows_invoke mirrors alike arguments callable
  | operandsFirst =>
      refine Run.follows_bind (follows_operands mirrors alike operands) ?_ fun _ _ step => step
      rintro arguments _ ⟨rfl, _⟩
      refine Run.follows_bind (follows_findProcedure alike procedure) ?_ fun _ _ step => step
      rintro callable _ rfl
      exact follows_invoke mirrors alike arguments callable

/-- In either order, an application of a procedure that is known evaluates its operands and calls
the procedure. -/
theorem follows_applyIn_known (order : Order) (mirrors : Mirrors slack recur other)
    (alike : Environment.Alike first second) {name : String} {callable : Callable}
    (found : first.procedure? name = some callable) {operands : List Expression}
    {next : List Datum → Run Session Datum} {after : Session → Session → Prop}
    (calls : ∀ arguments, arguments.length = operands.length →
      Run.Follows slack (· = ·) (InStep first second) after (invoke recur arguments callable)
        (next arguments))
    (ends : ∀ s t, InStep first second s t → after s t) :
    Run.Follows slack (· = ·) (InStep first second) after (applyIn order recur name operands)
      (Run.all other operands >>= next) := by
  have evaluated := follows_operands mirrors alike operands
  cases order with
  | headFirst =>
      intro session mate step
      have foundNow : session.environment.procedure? name = some callable := step.first ▸ found
      rw [applyIn, read_findProcedure_bind foundNow]
      refine Run.follows_bind evaluated ?_ ends session mate step
      rintro arguments _ ⟨rfl, counted⟩
      exact calls arguments counted
  | operandsFirst =>
      refine Run.follows_bind evaluated ?_ ends
      rintro arguments _ ⟨rfl, counted⟩ session mate step
      have foundNow : session.environment.procedure? name = some callable := step.first ▸ found
      rw [read_findProcedure_bind foundNow]
      exact calls arguments counted session mate step

/-- A later look-up gives what an earlier one found, since operands define nothing. An earlier one
that fails is excused. -/
theorem follows_applyIn_later (excused : ∀ name, slack.first (some (.undefinedProcedure name)))
    (mirrors : Mirrors slack recur other) (alike : Environment.Alike first second)
    (procedure : String) (operands : List Expression) :
    Run.Follows slack (· = ·) (InStep first second) (InStep first second)
      (applyIn .headFirst recur procedure operands)
      (applyIn .operandsFirst other procedure operands) := by
  intro session mate step
  cases found : first.procedure? procedure with
  | none =>
      rw [← step.first] at found
      rw [applyIn, read_findProcedure_bind_none found]
      exact .inr (.inl ⟨_, rfl, excused procedure⟩)
  | some callable =>
      have foundNow : session.environment.procedure? procedure = some callable :=
        step.first ▸ found
      rw [applyIn, read_findProcedure_bind foundNow]
      refine Run.follows_bind (follows_operands mirrors alike operands) ?_ (fun _ _ step => step)
        session mate step
      rintro arguments _ ⟨rfl, _⟩ later laterMate laterStep
      have foundLater : laterMate.environment.procedure? procedure = some callable := by
        rw [laterStep.second, ← alike.procedures procedure, found]
      rw [read_findProcedure_bind foundLater]
      exact follows_invoke mirrors alike arguments callable later laterMate laterStep

/-- The orders are the same, or the second one delays the look-up and a procedure that is missing
excuses the first. -/
inductive Order.Allows (slack : Slack) : Order → Order → Prop
  | same (order : Order) : Order.Allows slack order order
  | later (excused : ∀ name, slack.first (some (.undefinedProcedure name))) :
      Order.Allows slack .headFirst .operandsFirst

/-- One level of evaluation stays in step if the orders allow it and the levels below do. -/
theorem follows_evaluateWithIn {order later : Order} (allowed : Order.Allows slack order later)
    (mirrors : Mirrors slack recur other) :
    Mirrors slack (evaluateWithIn order recur) (evaluateWithIn later other) := by
  intro expression first second alike
  cases expression with
  | constant literal => exact follows_ofExcept _
  | quotation quoted => exact follows_ofExcept _
  | identifier name => exact follows_lookup alike name
  | application procedure operands =>
      simp only [evaluateWithIn]
      split
      · exact follows_conditional mirrors alike operands
      · cases allowed with
        | same => exact follows_applyIn_same order mirrors alike procedure operands
        | later excused => exact follows_applyIn_later excused mirrors alike procedure operands

/-- With at least as much fuel an evaluation does what one with less does, in every environment
that answers alike, and both leave their environments as they were. -/
theorem evaluateIn_mirrors {order later : Order} (fuelExcused : slack.first none)
    (allowed : Order.Allows slack order later) {fuel more : Nat} (enough : fuel ≤ more) :
    Mirrors slack (evaluateIn order fuel) (evaluateIn later more) := by
  induction fuel generalizing more with
  | zero =>
      intro expression first second _
      exact Run.follows_outOfFuel_first fuelExcused _
  | succ fuel ih =>
      obtain ⟨rest, rfl⟩ : ∃ rest, more = rest + 1 := ⟨more - 1, by omega⟩
      exact follows_evaluateWithIn allowed (ih (by omega))

/-- From one session, both evaluators end in one session. -/
theorem Mirrors.follows (mirrors : Mirrors slack recur other) (expression : Expression) :
    Run.Follows slack (· = ·) (· = ·) (· = ·) (recur expression) (other expression) := by
  rintro session _ rfl
  have agreed := mirrors expression _ _ (.refl session.environment) session session ⟨rfl, rfl, rfl⟩
  refine agreed.weaken (fun _ _ => id) ?_
  rintro ⟨environment, sink⟩ ⟨_, _⟩ ⟨rfl, same, rfl⟩
  exact congrArg (Session.mk · sink) same.symm

/-- From one session, both evaluators give the same values of the operands. -/
theorem Mirrors.follows_all (mirrors : Mirrors slack recur other) (operands : List Expression) :
    Run.Follows slack (· = ·) (· = ·) (· = ·) (Run.all recur operands) (Run.all other operands) := by
  have collected := Run.follows_all_same fun operand (_ : operand ∈ operands) =>
    mirrors.follows operand
  rw [List.forall₂_eq_eq_eq] at collected
  exact collected.weaken (fun _ _ => And.left) (fun _ _ => id) fun _ _ => id

/-- Two evaluators stay in step from either side. -/
theorem Mirrors.swap (mirrors : Mirrors slack recur other) : Mirrors slack.swap other recur := by
  intro expression first second alike
  refine (mirrors expression second first alike.symm).swap.weaken (fun _ _ => Eq.symm) ?_ ?_
  · exact fun _ _ step => ⟨step.second, step.first, step.sink.symm⟩
  · exact fun _ _ step => ⟨step.second, step.first, step.sink.symm⟩

end Session

end SmallScheme
