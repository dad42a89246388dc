/-
This file shows that compiled code does what an evaluation does that looks procedures up after their
operands, and the other way round: what the code does, the evaluation does with enough fuel.
-/

import SmallScheme.Proofs.Compiler.Loops

namespace SmallScheme.Compiler

section Simulation

variable {program : Program} {functions : List Code.Function} {slack : Slack} {base : String}

/-- Calls with some fuel do what the session does, if the code inside them does with less. A loop
may be evaluated with other fuel than a call. -/
theorem invokes_succ {recur looping : Expression → Run Session Datum} {less : Nat}
    (oneSided : (∀ stop, ¬ slack.first stop) ∨ ∀ stop, ¬ slack.second stop)
    (parts : ∀ procedure ∈ program.procedures, ∀ part ∈ partsOf procedure,
      SimulatesAt program functions slack base recur (Machine.call functions less) part)
    (plans : ∀ procedure ∈ program.procedures, ∀ plan, procedure.loopPlan? = some plan →
      ∀ part ∈ planParts plan,
        SimulatesAt program functions slack base looping (Machine.call functions less) part)
    (loops : ∀ procedure plan, procedure.loopPlan? = some plan → procedure.name ≠ "if" →
      Session.CallsAsLoop slack procedure plan recur looping less) :
    Invokes program functions slack base recur (Machine.call functions (less + 1)) := by
  intro environment image name callable callee arguments represents named bound carries
  cases carries with
  | predefined builtin => exact follows_hostCall builtin arguments
  | @defined procedure index body same member found emits =>
      subst same
      rw [Machine.call, found]
      change Run.Follows _ _ _ _ (Session.callCode recur procedure arguments)
        (Machine.body (Machine.call functions less) less (arguments.map Value.ofDatum) body)
      cases emits with
      | plain emitsValues emitsEffects emitsResult =>
          exact follows_plainCall represents member (parts procedure member) emitsValues
            emitsEffects emitsResult arguments
      | @loop plan condition updates exit planned conceals tests renews exits =>
          rw [Machine.body, parameters_eq]
          by_cases counted : procedure.params.length = arguments.length
          · rw [if_pos counted]
            have follows := follows_callPlan represents member planned conceals
              (plans procedure member plan planned) tests renews exits less counted
            intro session machine linked
            have boundNow : session.environment.procedure? procedure.name =
                some (.code procedure) := by
              rw [linked.environment, bound]
            have agreed := (loops procedure plan planned named).agrees session boundNow counted
            exact agreed.trans_eq oneSided (follows session machine linked)
          · rw [Session.callCode, if_neg counted, if_neg counted]
            exact Run.follows_fail _

/-- Compiled code with at least as much fuel does what the evaluation does. -/
theorem simulates_evaluateIn (program : Program) (functions : List Code.Function) (base : String)
    {fuel more : Nat} (enough : fuel ≤ more) (expression : Expression) :
    SimulatesAt program functions .firstFuel base (Session.evaluateIn .operandsFirst fuel)
      (Machine.call functions more) expression := by
  induction fuel generalizing more expression with
  | zero =>
      refine ⟨fun _ _ _ _ => ?_, fun _ _ _ _ => ?_⟩
      · exact Run.follows_outOfFuel_first rfl _
      · exact Run.follows_outOfFuel_first rfl _
  | succ fuel ih =>
      obtain ⟨less, rfl⟩ : ∃ less, more = less + 1 := ⟨more - 1, by omega⟩
      have inner : fuel ≤ less := Nat.le_of_succ_le_succ enough
      have loops (procedure : Procedure) (plan : LoopPlan)
          (planned : procedure.loopPlan? = some plan) (named : procedure.name ≠ "if") :
          Session.CallsAsLoop .firstFuel procedure plan (Session.evaluateIn .operandsFirst fuel)
            (Session.evaluateIn .operandsFirst fuel) less :=
        Session.evaluateIn_callsAsLoop planned named (Nat.le_refl fuel) inner
      have invokes : Invokes program functions .firstFuel base
          (Session.evaluateIn .operandsFirst fuel) (Machine.call functions (less + 1)) :=
        invokes_succ (.inr fun _ => id) (fun _ _ part _ => ih inner part)
          (fun _ _ _ _ part _ => ih inner part) loops
      refine simulatesAt_evaluateWithIn (fun none => absurd none (Nat.succ_ne_zero less)) ?_ ?_
        invokes
      · exact fun operand _ => ih (Nat.le_succ_of_le inner) operand
      · rintro _ ⟨rfl⟩ operand _
        exact ih inner operand

end Simulation

mutual

/-- The number of levels that an expression nests. -/
def depth : Expression → Nat
  | .application _ operands => depths operands + 1
  | _ => 1

/-- The number of levels that the deepest of some expressions nests. -/
def depths : List Expression → Nat
  | [] => 0
  | expression :: rest => max (depth expression) (depths rest)

end

/-- No expression is deeper than the deepest one. -/
theorem depth_le_depths {expressions : List Expression} {expression : Expression}
    (member : expression ∈ expressions) : depth expression ≤ depths expressions := by
  induction expressions with
  | nil => exact absurd member List.not_mem_nil
  | cons first rest ih =>
      rw [depths]
      rcases List.mem_cons.mp member with rfl | later
      · exact Nat.le_max_left _ _
      · exact Nat.le_trans (ih later) (Nat.le_max_right _ _)

/-- An operand is less deep than its application. -/
theorem depth_operand {expression operand : Expression} (member : operand ∈ operandsOf expression) :
    depth operand + 1 ≤ depth expression := by
  cases expression with
  | application procedure operands => exact Nat.succ_le_succ (depth_le_depths member)
  | _ => exact absurd member List.not_mem_nil

/-- Every expression has a level. -/
theorem depth_pos (expression : Expression) : 0 < depth expression := by
  cases expression <;> simp [depth]

/-- The levels that the procedures of a program nest. -/
def nesting (program : Program) : Nat :=
  depths (program.procedures.flatMap partsOf)

/-- No part of a procedure is deeper than the program nests. -/
theorem depth_part {program : Program} {procedure : Procedure} {part : Expression}
    (member : procedure ∈ program.procedures) (inside : part ∈ partsOf procedure) :
    depth part ≤ nesting program :=
  depth_le_depths (List.mem_flatMap.mpr ⟨procedure, member, inside⟩)

/-- No part of a plan is deeper than the program nests. -/
theorem depth_planPart {program : Program} {procedure : Procedure} {plan : LoopPlan}
    {part : Expression} (member : procedure ∈ program.procedures)
    (planned : procedure.loopPlan? = some plan) (inside : part ∈ planParts plan) :
    depth part ≤ nesting program := by
  obtain ⟨operands, body, condition, exit, again⟩ := body_of_plan planned
  have whole : depth procedure.body ≤ nesting program :=
    depth_part member (by simp [partsOf])
  have below (operand : Expression) (within : operand ∈ operands) :
      depth operand + 1 ≤ depth procedure.body := by
    rw [body]
    exact depth_operand within
  rcases List.mem_cons.mp inside with rfl | inside
  · have := below _ condition
    omega
  rcases List.mem_cons.mp inside with rfl | update
  · have := below _ exit
    omega
  · have repeated := below _ again
    have updated : depth part + 1 ≤ depth (.application procedure.name plan.updates) :=
      depth_operand update
    omega

/-- The fuel that an evaluation needs for what compiled calls do with the given fuel. A round of a
loop takes two units, and so does a call before it starts. -/
def needed (program : Program) : Nat → Nat
  | 0 => 0
  | fuel + 1 => needed program fuel + nesting program + 2 * fuel

section Converse

variable {program : Program} {functions : List Code.Function} {base : String}

/-- If calls do what the session does, so does the code of every expression. -/
theorem simulates_of_invokes {fuel : Nat}
    (invokes : ∀ more, needed program fuel ≤ more →
      Invokes program functions .secondFuel base (Session.evaluateIn .operandsFirst more)
        (Machine.call functions fuel))
    (inside : ∀ less, fuel = less + 1 → ∀ more expression,
      needed program fuel + depth expression ≤ more →
      SimulatesAt program functions .secondFuel base (Session.evaluateIn .operandsFirst more)
        (Machine.call functions less) expression)
    {more : Nat} {expression : Expression} (enough : needed program fuel + depth expression ≤ more) :
    SimulatesAt program functions .secondFuel base (Session.evaluateIn .operandsFirst more)
      (Machine.call functions fuel) expression := by
  induction more generalizing expression with
  | zero =>
      have positive := depth_pos expression
      omega
  | succ more ih =>
      have positive := depth_pos expression
      refine simulatesAt_evaluateWithIn (fun _ => rfl) ?_ ?_ (invokes more (by omega))
      · intro operand member
        have lower := depth_operand member
        exact ih (by omega)
      · intro less numbered operand member
        have lower := depth_operand member
        exact inside less numbered more operand (by omega)

/-- With enough fuel the evaluation does what the compiled code does. -/
theorem simulates_call (fuel : Nat) {more : Nat} {expression : Expression}
    (enough : needed program fuel + depth expression ≤ more) :
    SimulatesAt program functions .secondFuel base (Session.evaluateIn .operandsFirst more)
      (Machine.call functions fuel) expression := by
  induction fuel generalizing more expression with
  | zero =>
      refine simulates_of_invokes ?_ (fun less numbered => absurd numbered (by omega)) enough
      intro more _ environment image name callable callee arguments _ _ _ _
      exact Run.follows_outOfFuel_second rfl _
  | succ less ih =>
      have grows : needed program (less + 1) =
          needed program less + nesting program + 2 * less := rfl
      refine simulates_of_invokes ?_ ?_ enough
      · intro more fueled
        have loops (procedure : Procedure) (plan : LoopPlan)
            (planned : procedure.loopPlan? = some plan) (named : procedure.name ≠ "if") :
            Session.CallsAsLoop .secondFuel procedure plan
              (Session.evaluateIn .operandsFirst more)
              (Session.evaluateIn .operandsFirst (needed program less + nesting program)) less :=
          Session.evaluateIn_loopsAsCall planned named (by omega)
        have parts (procedure : Procedure) (member : procedure ∈ program.procedures)
            (part : Expression) (inside : part ∈ partsOf procedure) :
            SimulatesAt program functions .secondFuel base
              (Session.evaluateIn .operandsFirst more) (Machine.call functions less) part := by
          have bounded := depth_part member inside
          exact ih (by omega)
        have plans (procedure : Procedure) (member : procedure ∈ program.procedures)
            (plan : LoopPlan) (planned : procedure.loopPlan? = some plan) (part : Expression)
            (inside : part ∈ planParts plan) :
            SimulatesAt program functions .secondFuel base
              (Session.evaluateIn .operandsFirst (needed program less + nesting program))
              (Machine.call functions less) part := by
          have bounded := depth_planPart member planned inside
          exact ih (by omega)
        exact invokes_succ (.inl fun _ => id) parts plans loops
      · rintro _ ⟨rfl⟩ more expression fueled
        exact ih (by omega)

end Converse

end SmallScheme.Compiler
