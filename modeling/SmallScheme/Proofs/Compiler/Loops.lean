/-
This file shows that a compiled loop does what the rounds of its plan do in a session.
-/

import SmallScheme.Proofs.Compiler.Calls

namespace SmallScheme.Compiler

/-- The slots of the parameters hold the arguments. -/
theorem zip_eq_zipIdx {params : List String} {arguments : List Datum}
    (counted : params.length = arguments.length) :
    (params.zip arguments).map (Prod.map id some) =
      params.zipIdx.map (Prod.map id (arguments[·]?)) := by
  apply List.ext_getElem
  · simp [counted]
  · intro index _ inside
    have bound : index < arguments.length := by
      rw [← counted]
      simpa using inside
    simp [List.getElem?_eq_getElem bound]

/-- A name is looked up in the slot of the last parameter with this name. -/
theorem lookup_slots (params : List String) (name : String) :
    (Scope.slots params).lookup name = (params.zipIdx.reverse.lookup name).map .slot := by
  have listed : (Scope.slots params).bindings = params.zipIdx.map (Prod.map id .slot) := by
    rw [Scope.slots, List.mapIdx_eq_zipIdx_map]
    rfl
  rw [Scope.lookup, listed, ← List.map_reverse, Machine.lookup_map_snd]

/-- The slot of a parameter holds its last argument. -/
theorem holds_slots {params : List String} {arguments : List Datum} {environment : Environment}
    (counted : params.length = arguments.length) :
    (Scope.slots params).Holds ⟨[], arguments.map Value.ofDatum, none⟩
      (environment.pushFrame (.ofPairs (params.zip arguments))) := by
  intro name place placed
  rw [lookup_slots] at placed
  obtain ⟨index, numbered, rfl⟩ := Option.map_eq_some_iff.mp placed
  have same : ((params.zip arguments).reverse.lookup name).map some = some arguments[index]? := by
    rw [← Machine.lookup_map_snd, List.map_reverse, zip_eq_zipIdx counted, ← List.map_reverse,
      Machine.lookup_map_snd, numbered]
    rfl
  obtain ⟨datum, found, inside⟩ := Option.map_eq_some_iff.mp same
  refine ⟨datum, ?_, ?_⟩
  · rw [Environment.binding?_pushFrame, Table.find?_ofPairs, found]
    rfl
  · rw [Machine.Locals.read?, List.getElem?_map, ← inside]
    rfl

/-- The parts of a plan that its rounds evaluate. -/
def planParts (plan : LoopPlan) : List Expression :=
  plan.condition :: plan.exit :: plan.updates

/-- The body of a procedure with a plan holds the parts of the plan. -/
theorem body_of_plan {procedure : Procedure} {plan : LoopPlan}
    (planned : procedure.loopPlan? = some plan) :
    ∃ operands, procedure.body = .application "if" operands ∧ plan.condition ∈ operands ∧
      plan.exit ∈ operands ∧ .application procedure.name plan.updates ∈ operands := by
  obtain ⟨_, _, body, _⟩ := Procedure.loopPlan?_eq_some planned
  refine ⟨_, body, ?_⟩
  cases plan.negated <;> simp [Procedure.selfCall]

/-- A plan reads only what its procedure reads. -/
theorem mem_free_of_plan {procedure : Procedure} {plan : LoopPlan}
    (planned : procedure.loopPlan? = some plan) {part : Expression} {read : String}
    (member : part ∈ planParts plan)
    (reads : read ∈ part.free (Scope.slots procedure.params).names) : read ∈ procedure.free := by
  obtain ⟨definitions, _, _, _⟩ := Procedure.loopPlan?_eq_some planned
  obtain ⟨operands, body, condition, exit, again⟩ := body_of_plan planned
  have values : procedure.values = [] := by rw [Procedure.values, definitions]; rfl
  have names : (procedure.scopeAfter procedure.values.length).names = procedure.params := by
    rw [Procedure.scopeAfter_all, Procedure.locals, values, List.map_nil, List.append_nil]
  have inside : procedure.body ∈ procedure.effects ++ [procedure.body] := by simp
  refine Procedure.mem_free_of_part inside ?_
  rw [Scope.names_slots] at reads
  rw [names, body]
  rcases List.mem_cons.mp member with rfl | member
  · exact Expression.mem_free_application condition reads
  rcases List.mem_cons.mp member with rfl | update
  · exact Expression.mem_free_application exit reads
  · exact Expression.mem_free_application again (Expression.mem_free_application update reads)

section Rounds

variable {program : Program} {functions : List Code.Function} {slack : Slack} {base : String}
  {recur : Expression → Run Session Datum} {call : Callee → List Value → Run Machine Value}
  {environment : Environment} {image : Machine} {procedure : Procedure} {plan : LoopPlan}
  {condition : Code.Expr} {updates : List Code.Expr} {exit : Code.Tail}

/-- The session is in a frame that the machine does not see. -/
def InRounds (base : String) (environment : Environment) (image : Machine) (session : Session)
    (machine : Machine) : Prop :=
  ∃ frame, Linked base (environment.pushFrame frame) image session machine

/-- The loop replaces its slots when the plan replaces its frame. -/
theorem follows_rounds (represents : Represents program functions environment image)
    (member : procedure ∈ program.procedures) (planned : procedure.loopPlan? = some plan)
    (conceals : (Analysis.ofProgram program).publishes procedure = false)
    (simulates : ∀ part ∈ planParts plan,
      SimulatesAt program functions slack base recur call part)
    (tests : Emits (Analysis.ofProgram program) functions (.slots procedure.params) plan.condition
      condition)
    (renews : EmitsAll (Analysis.ofProgram program) functions (.slots procedure.params) plan.updates
      updates)
    (exits : EmitsTail (Analysis.ofProgram program) functions (.slots procedure.params) plan.exit
      exit)
    (rounds : Nat) {arguments : List Datum}
    (counted : procedure.params.length = arguments.length) :
    Run.Follows slack SameValue
      (Linked base (environment.pushFrame (.ofPairs (procedure.params.zip arguments))) image)
      (InRounds base environment image)
      (Session.planRounds recur procedure.params plan rounds)
      (Machine.loop call plan.negated condition updates exit rounds
        (arguments.map Value.ofDatum)) := by
  induction rounds generalizing arguments with
  | zero => exact fun _ _ _ => .inl trivial
  | succ rounds ih =>
      have hidden : Shown (Analysis.ofProgram program) procedure image.frames
          (.ofPairs (procedure.params.zip arguments)) none image.frames := .concealed conceals
      have now := represents.inside member (bindsLocals_parameters counted) hidden
      have holds : (Scope.slots procedure.params).Holds ⟨[], arguments.map Value.ofDatum, none⟩
          (environment.pushFrame (.ofPairs (procedure.params.zip arguments))) := holds_slots counted
      have unhidden (part : Expression) (inside : part ∈ planParts plan) :
          Unhidden program (environment.pushFrame (.ofPairs (procedure.params.zip arguments)))
            (.slots procedure.params) part :=
        unhidden_of_free now member fun _ => mem_free_of_plan planned inside
      have ends (session : Session) (machine : Machine)
          (linked : Linked base (environment.pushFrame
            (.ofPairs (procedure.params.zip arguments))) image session machine) :
          InRounds base environment image session machine := ⟨_, linked⟩
      rw [Session.planRounds, Session.planRound, Machine.loop]
      rw [planParts, List.forall_mem_cons, List.forall_mem_cons] at simulates unhidden
      refine Run.follows_bind (simulates.1.value now holds unhidden.1 tests) ?_ ends
      rintro datum _ rfl
      rw [Value.isTrue_ofDatum]
      cases datum.isTrue != plan.negated with
      | false =>
          exact (simulates.2.1.tail now holds unhidden.2.1 exits).weaken (fun _ _ => id)
            (fun _ _ => id) ends
      | true =>
          obtain ⟨_, _, _, updated⟩ := Procedure.loopPlan?_eq_some planned
          refine Run.follows_bind
            (follows_operands now holds simulates.2.2 unhidden.2.2 renews) ?_ ends
          rintro data _ ⟨rfl, length⟩ session machine linked
          have renewed : procedure.params.length = data.length := by omega
          refine ih renewed _ machine ⟨?_, linked.image, linked.prints⟩
          rw [Session.onEnvironment, linked.environment, Environment.popFrame_pushFrame]

/-- A compiled loop does what the loop of the plan does. -/
theorem follows_callPlan (represents : Represents program functions environment image)
    (member : procedure ∈ program.procedures) (planned : procedure.loopPlan? = some plan)
    (conceals : (Analysis.ofProgram program).publishes procedure = false)
    (simulates : ∀ part ∈ planParts plan,
      SimulatesAt program functions slack base recur call part)
    (tests : Emits (Analysis.ofProgram program) functions (.slots procedure.params) plan.condition
      condition)
    (renews : EmitsAll (Analysis.ofProgram program) functions (.slots procedure.params) plan.updates
      updates)
    (exits : EmitsTail (Analysis.ofProgram program) functions (.slots procedure.params) plan.exit
      exit)
    (rounds : Nat) {arguments : List Datum}
    (counted : procedure.params.length = arguments.length) :
    Run.Follows slack SameValue (Linked base environment image) (Linked base environment image)
      (Session.callPlan recur procedure.params plan rounds arguments)
      (Machine.loop call plan.negated condition updates exit rounds
        (arguments.map Value.ofDatum)) := by
  have inside := follows_rounds represents member planned conceals simulates tests renews exits
    rounds counted
  rw [Session.callPlan, ← Run.between_id (Machine.loop call plan.negated condition updates exit
    rounds (arguments.map Value.ofDatum))]
  refine Run.follows_between _ _ ?_ inside ?_
  · intro session machine linked
    exact ⟨by rw [Session.onEnvironment, linked.environment], linked.image, linked.prints⟩
  · rintro session machine ⟨frame, linked⟩
    refine ⟨?_, linked.image, linked.prints⟩
    rw [Session.onEnvironment, linked.environment, Environment.popFrame_pushFrame]

end Rounds

end SmallScheme.Compiler
