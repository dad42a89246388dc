/-
This file shows that a self recursion with a plan runs as the loop of the plan.
-/

import SmallScheme.Compiler.Loop
import SmallScheme.Proofs.Session.Order

namespace SmallScheme

namespace Procedure

/-- The branch that a loop takes to go on. -/
def selfCall (procedure : Procedure) (plan : LoopPlan) : Expression :=
  .application procedure.name plan.updates

/-- A self call names the procedure and has an operand for each parameter. -/
theorem selfCall?_eq_some {procedure : Procedure} {expression : Expression}
    {operands : List Expression} (found : procedure.selfCall? expression = some operands) :
    expression = .application procedure.name operands ∧
      operands.length = procedure.params.length := by
  cases expression with
  | application name given =>
      simp only [selfCall?, Bool.and_eq_true, decide_eq_true_eq] at found
      split at found
      · rename_i shape
        obtain rfl : given = operands := Option.some.inj found
        exact ⟨by rw [shape.1], shape.2⟩
      · contradiction
  | _ => contradiction

/-- A procedure with a plan has nothing but a conditional, and the plan names its parts. -/
theorem loopPlan?_eq_some {procedure : Procedure} {plan : LoopPlan}
    (planned : procedure.loopPlan? = some plan) :
    procedure.definitions = [] ∧ procedure.effects = [] ∧
      procedure.body = .application "if" (if plan.negated then
        [plan.condition, plan.exit, procedure.selfCall plan]
        else [plan.condition, procedure.selfCall plan, plan.exit]) ∧
      plan.updates.length = procedure.params.length := by
  unfold loopPlan? at planned
  split at planned
  · rename_i condition consequent alternative definitions effects body
    unfold branchPlan? at planned
    split at planned
    · rename_i updates found _
      obtain ⟨shape, counted⟩ := selfCall?_eq_some found
      obtain rfl : _ = plan := Option.some.inj planned
      exact ⟨definitions, effects, by simp [body, shape, selfCall], counted⟩
    · rename_i updates _ found
      obtain ⟨shape, counted⟩ := selfCall?_eq_some found
      obtain rfl : _ = plan := Option.some.inj planned
      exact ⟨definitions, effects, by simp [body, shape, selfCall], counted⟩
    · contradiction
  · contradiction

end Procedure

namespace Session

/-- While the truth of the condition differs from the negation of the plan it goes on, and otherwise
the exit gives the value. -/
def planRound (recur : Expression → Run Session Datum) (plan : LoopPlan)
    (again : Run Session Datum) : Run Session Datum := do
  if (← recur plan.condition).isTrue != plan.negated then again else recur plan.exit

/-- The rounds of a plan in the current frame. To go on, all the updates are evaluated, and the new
frame replaces the whole old one. -/
def planRounds (recur : Expression → Run Session Datum) (params : List String) (plan : LoopPlan) :
    Nat → Run Session Datum
  | 0 => Run.outOfFuel
  | rounds + 1 => planRound recur plan do
      let arguments ← Run.all recur plan.updates
      Run.update (onEnvironment fun environment =>
        environment.popFrame.pushFrame (.ofPairs (params.zip arguments)))
      planRounds recur params plan rounds

/-- The loop of a plan, which starts from a single frame for the arguments. -/
def callPlan (recur : Expression → Run Session Datum) (params : List String) (plan : LoopPlan)
    (rounds : Nat) (arguments : List Datum) : Run Session Datum :=
  Run.between
    (onEnvironment (·.pushFrame (.ofPairs (params.zip arguments))))
    (onEnvironment (·.popFrame))
    (planRounds recur params plan rounds)

/-- A procedure with a plan has nothing to do before its body. -/
theorem callBody_of_plan {procedure : Procedure} {plan : LoopPlan}
    (planned : procedure.loopPlan? = some plan) (recur : Expression → Run Session Datum) :
    callBody recur procedure = recur procedure.body := by
  obtain ⟨definitions, effects, _, _⟩ := Procedure.loopPlan?_eq_some planned
  unfold callBody Procedure.values
  rw [definitions, effects]
  rfl

/-- The body of a procedure with a plan decides between the self call and the exit. -/
theorem evaluateWithIn_body_of_plan {procedure : Procedure} {plan : LoopPlan} (order : Order)
    (planned : procedure.loopPlan? = some plan) (recur : Expression → Run Session Datum) :
    evaluateWithIn order recur procedure.body =
      planRound recur plan (recur (procedure.selfCall plan)) := by
  obtain ⟨_, _, body, _⟩ := Procedure.loopPlan?_eq_some planned
  rw [body]
  change conditional recur _ = (recur plan.condition >>= _)
  cases plan.negated with
  | false =>
      change (recur plan.condition >>= _) = _
      congr 1
      funext value
      cases value.isTrue <;> rfl
  | true =>
      change (recur plan.condition >>= _) = _
      congr 1
      funext value
      cases value.isTrue <;> rfl

/-- The environments answer alike except on the parameters, which the frame of a call covers. -/
structure AlikeBelow (params : List String) (first second : Environment) : Prop where
  procedures : ∀ name, first.procedure? name = second.procedure? name
  bindings : ∀ name, name ∉ params → first.binding? name = second.binding? name

/-- A frame for the parameters covers the difference. -/
theorem AlikeBelow.cover {params : List String} {first second : Environment}
    (alike : AlikeBelow params first second) {arguments : List Datum}
    (counted : params.length = arguments.length) :
    Environment.Alike (first.pushFrame (.ofPairs (params.zip arguments)))
      (second.pushFrame (.ofPairs (params.zip arguments))) where
  procedures := alike.procedures
  bindings name := by
    rw [Environment.binding?_pushFrame, Environment.binding?_pushFrame]
    by_cases bound : name ∈ params
    · have found : (Table.ofPairs (params.zip arguments)).find? name ≠ none :=
        fun missing => (Table.find?_ofPairs_zip_eq_none counted).mp missing bound
      obtain ⟨value, found⟩ := Option.ne_none_iff_exists'.mp found
      rw [found, Option.some_or, Option.some_or]
    · rw [alike.bindings name bound]

/-- A frame for the parameters hides nothing else. -/
theorem AlikeBelow.deeper {params : List String} {first second : Environment}
    (alike : AlikeBelow params first second) {arguments : List Datum}
    (counted : params.length = arguments.length) :
    AlikeBelow params (first.pushFrame (.ofPairs (params.zip arguments))) second where
  procedures := alike.procedures
  bindings name free := by
    have missing := (Table.find?_ofPairs_zip_eq_none counted).mpr free
    rw [Environment.binding?_pushFrame, missing, Option.none_or, alike.bindings name free]

/-- The recursion stands in its own environment, and the loop in a frame on another one. -/
def InRound (first second : Environment) (session other : Session) : Prop :=
  session.environment = first ∧ other.environment.popFrame = second ∧ session.sink = other.sink

section Rounds

variable {slack : Slack} {order : Order} {procedure : Procedure} {plan : LoopPlan}
  {recur inner looping : Expression → Run Session Datum} {rounds : Nat}

/-- One round does the same on both sides if what it goes on with does. -/
theorem follows_planRound {first second : Environment} {after : Session → Session → Prop}
    {again other : Run Session Datum} (mirrors : Mirrors slack recur looping)
    (alike : Environment.Alike first second)
    (goesOn : Run.Follows slack (· = ·) (InStep first second) after again other)
    (ends : ∀ s t, InStep first second s t → after s t) :
    Run.Follows slack (· = ·) (InStep first second) after (planRound recur plan again)
      (planRound looping plan other) := by
  refine Run.follows_bind (mirrors plan.condition first second alike) ?_ ends
  rintro value _ rfl
  cases value.isTrue != plan.negated with
  | false =>
      exact (mirrors plan.exit first second alike).weaken (fun _ _ => id) (fun _ _ => id) ends
  | true => exact goesOn

/-- A call of the procedure does what the rounds of its plan do from a frame for the arguments, in
every environment that differs from the one of the loop on the parameters only. -/
def CallsAsLoop (slack : Slack) (procedure : Procedure) (plan : LoopPlan)
    (recur looping : Expression → Run Session Datum) (rounds : Nat) : Prop :=
  ∀ first second arguments, AlikeBelow procedure.params first second →
    procedure.params.length = arguments.length →
    first.procedure? procedure.name = some (.code procedure) →
    Run.Follows slack (· = ·)
      (InStep first (second.pushFrame (.ofPairs (procedure.params.zip arguments))))
      (InRound first second) (callCode recur procedure arguments)
      (planRounds looping procedure.params plan rounds)

/-- The body runs in a frame that the recursion drops and the loop keeps. -/
theorem callsAsLoop_of_body (planned : procedure.loopPlan? = some plan)
    (body : ∀ first second arguments, AlikeBelow procedure.params first second →
      procedure.params.length = arguments.length →
      first.procedure? procedure.name = some (.code procedure) →
      Run.Follows slack (· = ·)
        (InStep (first.pushFrame (.ofPairs (procedure.params.zip arguments)))
          (second.pushFrame (.ofPairs (procedure.params.zip arguments))))
        (InRound (first.pushFrame (.ofPairs (procedure.params.zip arguments))) second)
        (recur procedure.body) (planRounds looping procedure.params plan rounds)) :
    CallsAsLoop slack procedure plan recur looping rounds := by
  intro first second arguments alike counted bound
  rw [callCode, if_pos counted, callBody_of_plan planned,
    ← Run.between_id (planRounds looping procedure.params plan rounds)]
  refine Run.follows_between _ _ ?_ (body first second arguments alike counted bound) ?_
  · intro session other step
    exact ⟨by rw [onEnvironment, step.first], step.second, step.sink⟩
  · rintro session other ⟨stands, below, sinks⟩
    exact ⟨by rw [onEnvironment, stands, Environment.popFrame_pushFrame], below, sinks⟩

/-- The self call evaluates the updates and calls the procedure again, and the loop evaluates them
and replaces its frame. -/
theorem follows_selfCall (planned : procedure.loopPlan? = some plan)
    (named : procedure.name ≠ "if") (mirrors : Mirrors slack inner looping)
    (next : CallsAsLoop slack procedure plan inner looping rounds) {first second : Environment}
    {arguments : List Datum} (alike : AlikeBelow procedure.params first second)
    (counted : procedure.params.length = arguments.length)
    (bound : first.procedure? procedure.name = some (.code procedure)) :
    Run.Follows slack (· = ·)
      (InStep (first.pushFrame (.ofPairs (procedure.params.zip arguments)))
        (second.pushFrame (.ofPairs (procedure.params.zip arguments))))
      (InRound (first.pushFrame (.ofPairs (procedure.params.zip arguments))) second)
      (evaluateWithIn order inner (procedure.selfCall plan)) (do
        let arguments ← Run.all looping plan.updates
        Run.update (onEnvironment fun environment =>
          environment.popFrame.pushFrame (.ofPairs (procedure.params.zip arguments)))
        planRounds looping procedure.params plan rounds) := by
  obtain ⟨_, _, _, updated⟩ := Procedure.loopPlan?_eq_some planned
  have deeper := alike.deeper counted
  rw [Procedure.selfCall, evaluateWithIn, if_neg named]
  refine follows_applyIn_known order mirrors (alike.cover counted) bound ?_ ?_
  · intro values length inside mate linked
    -- The loop has popped the old frame, while the recursion still holds it below the new one.
    refine next _ second values deeper (by omega) bound inside _ ⟨linked.first, ?_, linked.sink⟩
    rw [onEnvironment, linked.second, Environment.popFrame_pushFrame]
  · intro inside mate linked
    exact ⟨linked.first, by rw [linked.second, Environment.popFrame_pushFrame], linked.sink⟩

/-- One round of the loop does what one call does before the next call. -/
theorem callsAsLoop_succ (planned : procedure.loopPlan? = some plan)
    (named : procedure.name ≠ "if") (mirrors : Mirrors slack recur looping)
    (innerMirrors : Mirrors slack inner looping)
    (unfolds : recur (procedure.selfCall plan) = evaluateWithIn order inner (procedure.selfCall plan))
    (next : CallsAsLoop slack procedure plan inner looping rounds) :
    CallsAsLoop slack procedure plan (evaluateWithIn order recur) looping (rounds + 1) := by
  apply callsAsLoop_of_body planned
  intro first second arguments alike counted bound
  rw [evaluateWithIn_body_of_plan order planned, planRounds, unfolds]
  refine follows_planRound mirrors (alike.cover counted)
    (follows_selfCall planned named innerMirrors next alike counted bound) ?_
  intro session other step
  exact ⟨step.first, by rw [step.second, Environment.popFrame_pushFrame], step.sink⟩

/-- Every call with some fuel is a loop with as many rounds. -/
theorem evaluateIn_callsAsLoop (planned : procedure.loopPlan? = some plan)
    (named : procedure.name ≠ "if") {fuel more : Nat} (enough : fuel ≤ more)
    (counted : fuel ≤ rounds) :
    CallsAsLoop .firstFuel procedure plan (evaluateIn order fuel) (evaluateIn order more) rounds := by
  induction fuel using Nat.strongRecOn generalizing rounds with
  | ind fuel ih =>
      match fuel, rounds with
      | 0, _ =>
          apply callsAsLoop_of_body planned
          intro first second arguments _ _ _
          exact Run.follows_outOfFuel_first rfl _
      | 1, rounds + 1 =>
          have mirrors : Mirrors .firstFuel (evaluateIn order 0) (evaluateIn order more) :=
            evaluateIn_mirrors rfl (.same order) (Nat.zero_le more)
          apply callsAsLoop_of_body planned
          intro first second arguments alike counted _
          rw [evaluateIn, evaluateWithIn_body_of_plan order planned, planRounds]
          refine follows_planRound mirrors (alike.cover counted)
            (Run.follows_outOfFuel_first rfl _) ?_
          intro session other step
          exact ⟨step.first, by rw [step.second, Environment.popFrame_pushFrame], step.sink⟩
      | fuel + 2, rounds + 1 =>
          have outer : Mirrors .firstFuel (evaluateIn order (fuel + 1)) (evaluateIn order more) :=
            evaluateIn_mirrors rfl (.same order) (by omega)
          have inner : Mirrors .firstFuel (evaluateIn order fuel) (evaluateIn order more) :=
            evaluateIn_mirrors rfl (.same order) (by omega)
          exact callsAsLoop_succ planned named outer inner rfl
            (ih fuel (by omega) (by omega) (by omega))

/-- Every loop of some rounds is a call with two more units of fuel for each round. -/
theorem evaluateIn_loopsAsCall (planned : procedure.loopPlan? = some plan)
    (named : procedure.name ≠ "if") {fuel more : Nat} (enough : fuel + 2 * rounds ≤ more) :
    CallsAsLoop .secondFuel procedure plan (evaluateIn order more) (evaluateIn order fuel) rounds := by
  induction rounds generalizing more with
  | zero =>
      apply callsAsLoop_of_body planned
      intro first second arguments _ _ _
      exact Run.follows_outOfFuel_second rfl _
  | succ rounds ih =>
      obtain ⟨rest, rfl⟩ : ∃ rest, more = rest + 2 := ⟨more - 2, by omega⟩
      have outer : Mirrors .firstFuel (evaluateIn order fuel) (evaluateIn order (rest + 1)) :=
        evaluateIn_mirrors rfl (.same order) (by omega)
      have inner : Mirrors .firstFuel (evaluateIn order fuel) (evaluateIn order rest) :=
        evaluateIn_mirrors rfl (.same order) (by omega)
      exact callsAsLoop_succ planned named outer.swap inner.swap rfl (ih (by omega))

end Rounds

/-- A loop that starts from a session does what a call from the same session does, and both leave
its environment as it was. -/
theorem CallsAsLoop.agrees {slack : Slack} {procedure : Procedure} {plan : LoopPlan}
    {recur looping : Expression → Run Session Datum} {rounds : Nat}
    (calls : CallsAsLoop slack procedure plan recur looping rounds) (session : Session)
    (bound : session.environment.procedure? procedure.name = some (.code procedure))
    {arguments : List Datum} (counted : procedure.params.length = arguments.length) :
    Outcome.Agrees slack (· = ·) (· = ·) (callCode recur procedure arguments session)
      (callPlan looping procedure.params plan rounds arguments session) := by
  have alike : AlikeBelow procedure.params session.environment session.environment :=
    ⟨fun _ => rfl, fun _ _ => rfl⟩
  have follows : Run.Follows slack (· = ·) (fun first second => first = session ∧ second = session)
      (· = ·) (callCode recur procedure arguments)
      (callPlan looping procedure.params plan rounds arguments) := by
    rw [callPlan, ← Run.between_id (callCode recur procedure arguments)]
    refine Run.follows_between _ _ ?_ (calls _ _ arguments alike counted bound) ?_
    · rintro first second ⟨rfl, rfl⟩
      exact ⟨rfl, rfl, rfl⟩
    · rintro ⟨environment, sink⟩ ⟨inner, written⟩ ⟨stands, below, sinks⟩
      change environment = session.environment at stands
      change inner.popFrame = session.environment at below
      change sink = written at sinks
      rw [onEnvironment, stands, below, sinks]
      rfl
  exact follows session session ⟨rfl, rfl⟩

/-- A call of a procedure with a plan ends exactly as the loop of the plan does, with the same
value or error, the same output and the same environment. -/
theorem callCode_iff_callPlan {procedure : Procedure} {plan : LoopPlan}
    (planned : procedure.loopPlan? = some plan) (named : procedure.name ≠ "if")
    (session : Session)
    (bound : session.environment.procedure? procedure.name = some (.code procedure))
    {arguments : List Datum} (counted : arguments.length = procedure.params.length)
    {outcome : Outcome Session Datum} (finished : outcome ≠ .outOfFuel) :
    (∃ fuel, callCode (evaluate fuel) procedure arguments session = outcome) ↔
      ∃ fuel rounds,
        callPlan (evaluate fuel) procedure.params plan rounds arguments session = outcome := by
  constructor
  · rintro ⟨fuel, rfl⟩
    have loops : CallsAsLoop .firstFuel procedure plan (evaluateIn .headFirst fuel)
        (evaluateIn .headFirst fuel) fuel :=
      evaluateIn_callsAsLoop planned named (Nat.le_refl fuel) (Nat.le_refl fuel)
    rw [evaluateIn_headFirst] at loops
    exact ⟨fuel, fuel, (loops.agrees session bound counted.symm).eq_of_firstFuel finished⟩
  · rintro ⟨fuel, rounds, rfl⟩
    have calls : CallsAsLoop .secondFuel procedure plan (evaluateIn .headFirst (fuel + 2 * rounds))
        (evaluateIn .headFirst fuel) rounds :=
      evaluateIn_loopsAsCall planned named (Nat.le_refl (fuel + 2 * rounds))
    rw [evaluateIn_headFirst, evaluateIn_headFirst] at calls
    have agreed := (calls.agrees session bound counted.symm).swap.weaken
      (fun _ _ => Eq.symm) (fun _ _ => Eq.symm)
    exact ⟨fuel + 2 * rounds, agreed.eq_of_firstFuel finished⟩

/-- A procedure that reads the parameters of its caller. -/
def grow : Procedure :=
  ⟨"grow", [], [], [], .application "+" [.identifier "n", .identifier "total"]⟩

/-- The sum of the numbers down from the first parameter, added to the second. -/
def sumDown : Procedure :=
  ⟨"sum", ["n", "total"], [], [], .application "if"
    [.application "=" [.identifier "n", .constant (.integer 0)], .identifier "total",
      .application "sum" [.application "-" [.identifier "n", .constant (.integer 1)],
        .application "grow" []]]⟩

/-- The plan of the sum, which stops where its condition holds. -/
def sumPlan : LoopPlan where
  condition := .application "=" [.identifier "n", .constant (.integer 0)]
  negated := true
  updates := [.application "-" [.identifier "n", .constant (.integer 1)], .application "grow" []]
  exit := .identifier "total"

/-- A session inside a call that binds one of the parameters too. -/
def sumSession : Session :=
  onEnvironment (fun environment => ((environment.register sumDown).register grow).pushFrame
    (.ofPairs [("total", .integer 7)])) (fresh .unlimited)

/-- The loop of this plan gives the sum, and leaves the session as it was. -/
theorem sumDown_callPlan :
    sumDown.loopPlan? = some sumPlan ∧ sumDown.name ≠ "if" ∧
      ∃ fuel rounds, callPlan (evaluate fuel) sumDown.params sumPlan rounds
        [.integer 3, .integer 0] sumSession = .ok (.integer 6) sumSession := by
  have planned : sumDown.loopPlan? = some sumPlan := rfl
  have named : sumDown.name ≠ "if" := by decide
  have finished : Outcome.ok (Datum.integer 6) sumSession ≠ .outOfFuel := by simp
  have called : callCode (evaluate 20) sumDown [.integer 3, .integer 0] sumSession =
      .ok (.integer 6) sumSession := rfl
  exact ⟨planned, named,
    (callCode_iff_callPlan planned named sumSession rfl rfl finished).mp ⟨20, called⟩⟩

end Session

end SmallScheme
