/-
This file shows that the code of an expression does what one level of evaluation does, if the code of
its operands and of what it calls does.
-/

import SmallScheme.Proofs.Compiler.Represents

namespace SmallScheme.Compiler

/-- The code of a literal builds the value of the literal. -/
theorem evaluate_constant {literal : Literal} {code : Code.Expr}
    (made : constant literal = .ok code) :
    ∃ datum, Datum.ofLiteral literal = .ok datum ∧ ∀ call locals,
      Machine.evaluate call locals code = pure (Value.ofDatum datum) := by
  cases literal with
  | integer value =>
      cases made
      refine ⟨.integer value, rfl, fun call locals => ?_⟩
      rw [Machine.evaluate, Value.ofDigits_text]
      rfl
  | character name =>
      rw [constant] at made
      cases named : Character.ofName name with
      | error error =>
          rw [named] at made
          cases made
      | ok value =>
          rw [named] at made
          cases made
          refine ⟨.character value, ?_, fun call locals => by rw [Machine.evaluate]; rfl⟩
          rw [Datum.ofLiteral, named]
          rfl
  | string content =>
      cases made
      exact ⟨.string content, rfl, fun call locals => by rw [Machine.evaluate]; rfl⟩
  | boolean value =>
      cases made
      exact ⟨.boolean value, rfl, fun call locals => by rw [Machine.evaluate]; rfl⟩

mutual

/-- The code of a quoted datum builds the value of the datum. -/
theorem evaluate_quoted {datum : Quoted} {code : Code.Expr} (made : quoted datum = .ok code) :
    ∃ built, Datum.ofQuoted datum = .ok built ∧ ∀ call locals,
      Machine.evaluate call locals code = pure (Value.ofDatum built) := by
  cases datum with
  | constant literal => exact evaluate_constant made
  | symbol name =>
      cases made
      exact ⟨.symbol name, rfl, fun call locals => by rw [Machine.evaluate]; rfl⟩
  | list elements =>
      obtain ⟨codes, given, ended⟩ := except_bind_eq_ok made
      cases ended
      obtain ⟨data, built, runs⟩ := evaluateAll_quoted given
      refine ⟨.list data, by rw [Datum.ofQuoted, built]; rfl, fun call locals => ?_⟩
      rw [Machine.evaluate, runs, Value.ofDatum, Value.allOfDatum_eq_map]
      rfl
  | vector elements =>
      obtain ⟨codes, given, ended⟩ := except_bind_eq_ok made
      cases ended
      obtain ⟨data, built, runs⟩ := evaluateAll_quoted given
      refine ⟨.vector data, by rw [Datum.ofQuoted, built]; rfl, fun call locals => ?_⟩
      rw [Machine.evaluate, runs, Value.ofDatum, Value.allOfDatum_eq_map]
      rfl
  | quotation inner =>
      obtain ⟨code, given, ended⟩ := except_bind_eq_ok made
      cases ended
      obtain ⟨data, built, runs⟩ := evaluate_quoted given
      refine ⟨.quotation data, by rw [Datum.ofQuoted, built]; rfl, fun call locals => ?_⟩
      rw [Machine.evaluate, runs, Value.ofDatum]
      rfl

/-- The codes of quoted data build the values of the data. -/
theorem evaluateAll_quoted {data : List Quoted} {codes : List Code.Expr}
    (made : allQuoted data = .ok codes) :
    ∃ built, Datum.allOfQuoted data = .ok built ∧ ∀ call locals,
      Machine.evaluateAll call locals codes = pure (built.map Value.ofDatum) := by
  cases data with
  | nil =>
      cases made
      exact ⟨[], rfl, fun call locals => by rw [Machine.evaluateAll]; rfl⟩
  | cons datum rest =>
      obtain ⟨code, first, made⟩ := except_bind_eq_ok made
      obtain ⟨others, second, ended⟩ := except_bind_eq_ok made
      cases ended
      obtain ⟨head, headBuilt, headRuns⟩ := evaluate_quoted first
      obtain ⟨tail, tailBuilt, tailRuns⟩ := evaluateAll_quoted second
      refine ⟨head :: tail, by rw [Datum.allOfQuoted, headBuilt, tailBuilt]; rfl, ?_⟩
      intro call locals
      rw [Machine.evaluateAll, headRuns, tailRuns]
      rfl

end

/-- The values are those of the names. -/
def Named (environment : Environment) : List String → List Value → Prop :=
  List.Forall₂ fun name value =>
    ∃ datum, environment.binding? name = some datum ∧ value = Value.ofDatum datum

/-- Reading the visible locals gives the values of their names. -/
theorem evaluateAll_reads {scope : Scope} {locals : Machine.Locals} {environment : Environment}
    (holds : scope.Holds locals environment) {names : List String}
    (bound : ∀ name ∈ names, name ∈ scope.names)
    (call : Callee → List Value → Run Machine Value) :
    ∃ values, Named environment names values ∧
      Machine.evaluateAll call locals ((names.filterMap scope.lookup).map .read) = pure values := by
  induction names with
  | nil => exact ⟨[], .nil, by rw [List.filterMap_nil, List.map_nil, Machine.evaluateAll]⟩
  | cons name rest ih =>
      rw [List.forall_mem_cons] at bound
      obtain ⟨values, named, runs⟩ := ih bound.2
      obtain ⟨place, placed⟩ :=
        Option.isSome_iff_exists.mp ((Scope.lookup_isSome_iff scope name).mpr bound.1)
      obtain ⟨datum, found, held⟩ := holds name place placed
      refine ⟨Value.ofDatum datum :: values, .cons ⟨datum, found, rfl⟩ named, ?_⟩
      rw [List.filterMap_cons_some placed, List.map_cons, Machine.evaluateAll, Machine.evaluate,
        held, runs]
      rfl

/-- A name with a value is bound. -/
theorem Named.bound {environment : Environment} {names : List String} {values : List Value}
    (named : Named environment names values) {name : String} (member : name ∈ names) :
    ∃ datum, environment.binding? name = some datum := by
  induction named with
  | nil => exact absurd member List.not_mem_nil
  | cons bound _ ih =>
      rcases List.mem_cons.mp member with rfl | later
      · exact ⟨bound.choose, bound.choose_spec.1⟩
      · exact ih later

/-- Unpacking binds every name to its value. -/
theorem lookup_unpack {environment : Environment} {names : List String} {values : List Value}
    (named : Named environment names values) (locals : Machine.Locals) (name : String) :
    (locals.unpack (names.map some) values).held.lookup name =
      if name ∈ names then (environment.binding? name).map Value.ofDatum
      else locals.held.lookup name := by
  induction named generalizing locals with
  | nil => rfl
  | @cons first value rest values bound _ ih =>
      obtain ⟨datum, found, rfl⟩ := bound
      rw [List.map_cons, Machine.Locals.unpack, ih]
      by_cases later : name ∈ rest
      · simp [later]
      · by_cases same : name = first
        · subst same
          simp [later, found, Machine.Locals.bind]
        · simp [later, same, Machine.Locals.bind, List.lookup_cons, beq_false_of_ne same]

/-- The function of a conditional finds the visible locals of its caller in its parameters. -/
theorem holds_unpack {environment : Environment} {names : List String} {values : List Value}
    (named : Named environment names values) :
    (Scope.parameters names).Holds (Machine.Locals.empty.unpack (names.map some) values)
      environment := by
  intro name place placed
  rw [Scope.lookup_parameters] at placed
  split at placed
  · rename_i member
    cases placed
    have lookedUp := lookup_unpack named .empty name
    rw [if_pos member] at lookedUp
    obtain ⟨datum, found⟩ := named.bound member
    refine ⟨datum, found, ?_⟩
    rw [Machine.Locals.read?, lookedUp, found]
    rfl
  · contradiction

/-- The expressions that one level of evaluation leaves to the next. -/
def operandsOf : Expression → List Expression
  | .application _ operands => operands
  | _ => []

/-- The code of the expression does what the evaluator does, wherever it stands in the program. -/
structure SimulatesAt (program : Program) (functions : List Code.Function) (slack : Slack)
    (base : String) (recur : Expression → Run Session Datum)
    (call : Callee → List Value → Run Machine Value) (expression : Expression) : Prop where
  value : ∀ {environment : Environment} {image : Machine} {scope : Scope}
    {locals : Machine.Locals} {code : Code.Expr},
    Represents program functions environment image → scope.Holds locals environment →
    Unhidden program environment scope expression →
    Emits (Analysis.ofProgram program) functions scope expression code →
    Run.Follows slack SameValue (Linked base environment image) (Linked base environment image)
      (recur expression) (Machine.evaluate call locals code)
  tail : ∀ {environment : Environment} {image : Machine} {scope : Scope}
    {locals : Machine.Locals} {code : Code.Tail},
    Represents program functions environment image → scope.Holds locals environment →
    Unhidden program environment scope expression →
    EmitsTail (Analysis.ofProgram program) functions scope expression code →
    Run.Follows slack SameValue (Linked base environment image) (Linked base environment image)
      (recur expression) (Machine.finish call locals code)

/-- What the session calls does what the code under the same name does. -/
def Invokes (program : Program) (functions : List Code.Function) (slack : Slack)
    (base : String) (recur : Expression → Run Session Datum)
    (call : Callee → List Value → Run Machine Value) : Prop :=
  ∀ environment image name callable callee arguments,
    Represents program functions environment image → name ≠ "if" →
    environment.procedure? name = some callable →
    Carries program functions name (some callable) (some callee) →
    Run.Follows slack SameValue (Linked base environment image) (Linked base environment image)
      (Session.invoke recur arguments callable) (call callee (arguments.map Value.ofDatum))

section Step

variable {program : Program} {functions : List Code.Function} {slack : Slack} {base : String}
  {recur : Expression → Run Session Datum} {call : Callee → List Value → Run Machine Value}
  {environment : Environment} {image : Machine} {scope : Scope} {locals : Machine.Locals}

/-- What an application may read its operands may read. -/
theorem Unhidden.operand {procedure : String} {operands : List Expression}
    (unhidden : Unhidden program environment scope (.application procedure operands))
    {operand : Expression} (member : operand ∈ operands) :
    Unhidden program environment scope operand :=
  fun name reads => unhidden name (Expression.mem_free_application member reads)

/-- Operands are evaluated from left to right on both sides. -/
theorem follows_operands (represents : Represents program functions environment image)
    (holds : scope.Holds locals environment) {operands : List Expression}
    {codes : List Code.Expr}
    (simulates : ∀ operand ∈ operands,
      SimulatesAt program functions slack base recur call operand)
    (unhidden : ∀ operand ∈ operands, Unhidden program environment scope operand)
    (emits : EmitsAll (Analysis.ofProgram program) functions scope operands codes) :
    Run.Follows slack (fun data values => values = data.map Value.ofDatum ∧
        data.length = operands.length)
      (Linked base environment image) (Linked base environment image)
      (Run.all recur operands) (Machine.evaluateAll call locals codes) := by
  induction operands generalizing codes with
  | nil =>
      cases emits
      rw [Machine.evaluateAll]
      exact Run.follows_pure ⟨rfl, rfl⟩
  | cons operand rest ih =>
      rw [List.forall_mem_cons] at simulates unhidden
      cases emits with
      | cons first others =>
          rw [Machine.evaluateAll]
          refine Run.follows_bind (simulates.1.value represents holds unhidden.1 first) ?_
            fun _ _ linked => linked
          rintro datum _ rfl
          refine Run.follows_bind (ih simulates.2 unhidden.2 others) ?_ fun _ _ linked => linked
          rintro data _ ⟨rfl, counted⟩
          exact Run.follows_pure ⟨rfl, congrArg (· + 1) counted⟩

/-- Only the selected branch runs on both sides. -/
theorem follows_branch (represents : Represents program functions environment image)
    (holds : scope.Holds locals environment)
    {condition consequent alternative : Expression} {test : Code.Expr} {first second : Code.Tail}
    (simulates : ∀ operand ∈ [condition, consequent, alternative],
      SimulatesAt program functions slack base recur call operand)
    (unhidden : ∀ operand ∈ [condition, consequent, alternative],
      Unhidden program environment scope operand)
    (tests : Emits (Analysis.ofProgram program) functions scope condition test)
    (taken : EmitsTail (Analysis.ofProgram program) functions scope consequent first)
    (other : EmitsTail (Analysis.ofProgram program) functions scope alternative second) :
    Run.Follows slack SameValue (Linked base environment image) (Linked base environment image)
      (Session.conditional recur [condition, consequent, alternative])
      (Machine.finish call locals (.branch test first second)) := by
  simp only [List.forall_mem_cons] at simulates unhidden
  rw [Machine.finish]
  refine Run.follows_bind (simulates.1.value represents holds unhidden.1 tests) ?_
    fun _ _ linked => linked
  rintro datum _ rfl
  rw [Value.isTrue_ofDatum]
  cases datum.isTrue with
  | false => exact simulates.2.2.1.tail represents holds unhidden.2.2.1 other
  | true => exact simulates.2.1.tail represents holds unhidden.2.1 taken

/-- The function of a conditional may read what the conditional may read. -/
theorem Unhidden.visible {expression : Expression}
    (unhidden : Unhidden program environment scope expression) :
    Unhidden program environment (.parameters scope.visible) expression := by
  have same (name : String) : name ∈ (Scope.parameters scope.visible).names ↔ name ∈ scope.names := by
    rw [Scope.names_parameters, Scope.mem_visible]
  intro name reads
  rw [Expression.free_congr same] at reads
  exact unhidden name reads

/-- The function of a conditional does what the conditional does. -/
theorem follows_conditional {fuel index : Nat}
    (represents : Represents program functions environment image)
    (holds : scope.Holds locals environment)
    {condition consequent alternative : Expression} {test : Code.Expr} {first second : Code.Tail}
    (exhausted : fuel = 0 → slack.second none)
    (simulates : ∀ less, fuel = less + 1 → ∀ operand ∈ [condition, consequent, alternative],
      SimulatesAt program functions slack base recur (Machine.call functions less) operand)
    (unhidden : ∀ operand ∈ [condition, consequent, alternative],
      Unhidden program environment scope operand)
    (found : Machine.conditional? functions index =
      some (scope.visible, .branch test first second))
    (tests : Emits (Analysis.ofProgram program) functions (.parameters scope.visible) condition test)
    (taken : EmitsTail (Analysis.ofProgram program) functions (.parameters scope.visible) consequent
      first)
    (other : EmitsTail (Analysis.ofProgram program) functions (.parameters scope.visible)
      alternative second) :
    Run.Follows slack SameValue (Linked base environment image) (Linked base environment image)
      (Session.conditional recur [condition, consequent, alternative])
      (Machine.evaluate (Machine.call functions fuel) locals
        (.conditional index (visibleReads scope))) := by
  obtain ⟨values, named, runs⟩ := evaluateAll_reads holds
    (fun name member => (Scope.mem_visible scope name).mp member) (Machine.call functions fuel)
  rw [Machine.evaluate, visibleReads, runs]
  change Run.Follows _ _ _ _ _ (Machine.call functions fuel (.conditional index) values)
  cases fuel with
  | zero => exact Run.follows_outOfFuel_second (exhausted rfl) _
  | succ less =>
      have counted : scope.visible.length = values.length := named.length_eq
      rw [Machine.call, found]
      change Run.Follows _ _ _ _ _ (Machine.branch (Machine.call functions less) values
        (scope.visible, .branch test first second))
      rw [Machine.branch, if_pos counted]
      exact follows_branch represents (holds_unpack named) (simulates less rfl)
        (fun operand member => (unhidden operand member).visible) tests taken other

/-- A look-up finds code for what the session finds, or both of them find nothing. -/
theorem follows_callee {A : Type} {B : Type} {same : A → B → Prop} {name : String}
    (represents : Represents program functions environment image)
    (known : (Analysis.ofProgram program).isProcedure name = true)
    {next : Callable → Run Session A} {other : Callee → Run Machine B}
    (goesOn : ∀ callable callee, environment.procedure? name = some callable →
      Carries program functions name (some callable) (some callee) →
      Run.Follows slack same (Linked base environment image) (Linked base environment image)
        (next callable) (other callee)) :
    Run.Follows slack same (Linked base environment image) (Linked base environment image)
      (Run.read (Session.findProcedure name) >>= next)
      (Run.read (Machine.callee name) >>= other) := by
  obtain ⟨code, slot, carries⟩ := represents.procedures name known
  intro session machine linked
  have slotNow : machine.procedures.find? name = some ⟨name, code⟩ := by
    rw [linked.image]
    exact slot
  cases found : environment.procedure? name with
  | none =>
      rw [found] at carries
      cases carries
      rw [← linked.environment] at found
      rw [Session.read_findProcedure_bind_none found, Run.bind_apply, Run.read, Machine.callee,
        slotNow]
      exact .inl ⟨rfl, linked⟩
  | some callable =>
      rw [found] at carries
      have foundNow : session.environment.procedure? name = some callable := by
        rw [linked.environment, found]
      rw [Session.read_findProcedure_bind foundNow]
      obtain ⟨callee, rfl⟩ : ∃ callee, code = some callee := by
        cases carries with
        | predefined builtin => exact ⟨_, rfl⟩
        | defined => exact ⟨_, rfl⟩
      have read : (Run.read (Machine.callee name) >>= other) machine = other callee machine := by
        rw [Run.bind_apply, Run.read, Machine.callee, slotNow]
        rfl
      rw [read]
      exact goesOn callable callee found carries session machine linked

/-- Both sides evaluate the operands before they look the procedure up. -/
theorem follows_application (represents : Represents program functions environment image)
    (holds : scope.Holds locals environment) {procedure : String} {operands : List Expression}
    {arguments : List Code.Expr} (named : procedure ≠ "if")
    (simulates : ∀ operand ∈ operands,
      SimulatesAt program functions slack base recur call operand)
    (invokes : Invokes program functions slack base recur call)
    (unhidden : ∀ operand ∈ operands, Unhidden program environment scope operand)
    (known : (Analysis.ofProgram program).isProcedure procedure = true)
    (emits : EmitsAll (Analysis.ofProgram program) functions scope operands arguments) :
    Run.Follows slack SameValue (Linked base environment image) (Linked base environment image)
      (Session.applyIn .operandsFirst recur procedure operands)
      (Machine.evaluate call locals (.call procedure arguments)) := by
  rw [Machine.evaluate]
  refine Run.follows_bind (follows_operands represents holds simulates unhidden emits) ?_
    fun _ _ linked => linked
  rintro data _ ⟨rfl, _⟩
  exact follows_callee represents known fun callable callee found carries =>
    invokes environment image procedure callable callee data represents named found carries

/-- A predefined procedure that the program does not define is called without a look-up. -/
theorem follows_hostApplication (represents : Represents program functions environment image)
    (holds : scope.Holds locals environment) {procedure : String} {builtin : Builtin}
    {operands : List Expression} {arguments : List Code.Expr} (named : procedure ≠ "if")
    (simulates : ∀ operand ∈ operands,
      SimulatesAt program functions slack base recur call operand)
    (invokes : Invokes program functions slack base recur call)
    (unhidden : ∀ operand ∈ operands, Unhidden program environment scope operand)
    (undefined : (Analysis.ofProgram program).isProcedure procedure = false)
    (predefined : Builtin.ofName? procedure = some builtin)
    (emits : EmitsAll (Analysis.ofProgram program) functions scope operands arguments) :
    Run.Follows slack SameValue (Linked base environment image) (Linked base environment image)
      (Session.applyIn .operandsFirst recur procedure operands)
      (Machine.evaluate call locals (.host builtin arguments)) := by
  have found : environment.procedure? procedure = some (.builtin builtin) := by
    rw [represents.builtins procedure undefined, predefined]
    rfl
  rw [Machine.evaluate]
  refine Run.follows_bind (follows_operands represents holds simulates unhidden emits) ?_
    fun _ _ linked => linked
  rintro data _ ⟨rfl, _⟩ session machine linked
  have foundNow : session.environment.procedure? procedure = some (.builtin builtin) := by
    rw [linked.environment, found]
  rw [Session.read_findProcedure_bind foundNow]
  exact invokes environment image procedure _ _ data represents named found
    (.predefined builtin) session machine linked

/-- If the code of the operands does what the evaluator does, with the same fuel for calls and
inside of conditionals with less, the code of the expression does one level of evaluation. -/
theorem simulatesAt_evaluateWithIn {fuel : Nat} {expression : Expression}
    (exhausted : fuel = 0 → slack.second none)
    (here : ∀ operand ∈ operandsOf expression,
      SimulatesAt program functions slack base recur (Machine.call functions fuel) operand)
    (inside : ∀ less, fuel = less + 1 → ∀ operand ∈ operandsOf expression,
      SimulatesAt program functions slack base recur (Machine.call functions less) operand)
    (invokes : Invokes program functions slack base recur (Machine.call functions fuel)) :
    SimulatesAt program functions slack base (Session.evaluateWithIn .operandsFirst recur)
      (Machine.call functions fuel) expression := by
  have value {environment : Environment} {image : Machine} {scope : Scope}
      {locals : Machine.Locals} {code : Code.Expr}
      (represents : Represents program functions environment image)
      (holds : scope.Holds locals environment)
      (unhidden : Unhidden program environment scope expression)
      (emits : Emits (Analysis.ofProgram program) functions scope expression code) :
      Run.Follows slack SameValue (Linked base environment image) (Linked base environment image)
        (Session.evaluateWithIn .operandsFirst recur expression)
        (Machine.evaluate (Machine.call functions fuel) locals code) := by
    cases emits with
    | constant made =>
        obtain ⟨datum, built, runs⟩ := evaluate_constant made
        rw [Session.evaluateWithIn, built, runs]
        exact Run.follows_pure rfl
    | quotation made =>
        obtain ⟨datum, built, runs⟩ := evaluate_quoted made
        rw [Session.evaluateWithIn, built, runs]
        exact Run.follows_pure rfl
    | identifier made => exact follows_identifier represents holds unhidden made
    | conditional found tests taken other =>
        exact follows_conditional represents holds exhausted inside
          (fun operand member => unhidden.operand member) found tests taken other
    | call named known emits =>
        rw [Session.evaluateWithIn, if_neg named]
        exact follows_application represents holds named here invokes
          (fun operand member => unhidden.operand member) known emits
    | host named undefined predefined accepted emits =>
        rw [Session.evaluateWithIn, if_neg named]
        exact follows_hostApplication represents holds named here invokes
          (fun operand member => unhidden.operand member) undefined predefined emits
  refine ⟨value, ?_⟩
  intro environment image scope locals code represents holds unhidden emits
  cases emits with
  | value emits =>
      rw [Machine.finish]
      exact value represents holds unhidden emits
  | branch tests taken other =>
      exact follows_branch represents holds here (fun operand member => unhidden.operand member)
        tests taken other

end Step

end SmallScheme.Compiler
