/-
This file shows which errors a program that compiles can still meet when it runs in a session.
-/

import SmallScheme.Proofs.Compiler.Checks
import SmallScheme.Proofs.Session.Effects
import SmallScheme.Proofs.Session.Errors

namespace SmallScheme

/-- Some procedure of the program takes the name of a predefined one. -/
def Program.Redefines (program : Program) : Prop :=
  ∃ procedure ∈ program.procedures, (Builtin.ofName? procedure.name).isSome

/-- The errors that compilation cannot rule out. Which definition is in effect depends on the run,
so a variable or a procedure may be used before it is there, and a predefined procedure may be
called in place of the one that takes its name. -/
def Program.Permits (program : Program) : RunError → Prop
  | .characterLiteral _ => False
  | .undefinedVariable name =>
      (∃ value, .value name value ∈ program.definitions) ∨
        (Analysis.ofProgram program).isDynamic name = true
  | .undefinedProcedure name =>
      (∃ procedure ∈ program.procedures, procedure.name = name) ∧ Builtin.ofName? name = none
  | .arityMismatch _ _ => program.Redefines
  | .minimalArityMismatch _ _ => program.Redefines
  | _ => True

/-- What a name stands for while the program runs. -/
inductive Resolves (program : Program) (name : String) : Option Callable → Prop
  | predefined {builtin : Builtin} (known : Builtin.ofName? name = some builtin) :
      Resolves program name (some (.builtin builtin))
  | defined {procedure : Procedure} (member : procedure ∈ program.procedures)
      (named : procedure.name = name) : Resolves program name (some (.code procedure))
  | missing (unknown : Builtin.ofName? name = none) : Resolves program name none

/-- The names are bound, and procedures come from the program or are predefined. -/
structure Provides (program : Program) (names : List String) (environment : Environment) :
    Prop where
  binds : ∀ name ∈ names, (environment.binding? name).isSome
  resolves : ∀ name, Resolves program name (environment.procedure? name)

/-- A definition binds its own name and keeps the others. -/
theorem Environment.binding?_defineVariable (environment : Environment) (name other : String)
    (value : Datum) :
    (environment.defineVariable name value).binding? other =
      if other = name then some value else environment.binding? other := by
  obtain ⟨globals, procedures, frames⟩ := environment
  cases frames with
  | nil => exact Table.find?_insert globals name other value
  | cons frame outer =>
      have pushed (table : Table Datum) := binding?_pushFrame ⟨globals, procedures, outer⟩ table other
      have inner := pushed (frame.insert name value)
      rw [Table.find?_insert] at inner
      refine inner.trans ?_
      split
      · rfl
      · exact (pushed frame).symm

namespace Provides

variable {program : Program} {names : List String} {environment : Environment}

/-- A variable that is defined is provided too. -/
theorem defineVariable (provides : Provides program names environment) (name : String)
    (value : Datum) : Provides program (names ++ [name]) (environment.defineVariable name value) := by
  constructor
  · intro other member
    rw [Environment.binding?_defineVariable]
    split
    · rfl
    · rcases List.mem_append.mp member with known | same
      · exact provides.binds other known
      · exact absurd (List.mem_singleton.mp same) ‹_›
  · intro other
    have kept : (environment.defineVariable name value).procedures = environment.procedures := by
      unfold Environment.defineVariable
      split <;> rfl
    rw [Environment.procedure?, kept]
    exact provides.resolves other

/-- A call binds its parameters. -/
theorem pushFrame (provides : Provides program names environment) {params : List String}
    {arguments : List Datum} (counted : params.length = arguments.length) :
    Provides program params (environment.pushFrame (.ofPairs (params.zip arguments))) := by
  refine ⟨?_, provides.resolves⟩
  intro name member
  rw [Environment.binding?_pushFrame, Option.isSome_or]
  have found : (Table.ofPairs (params.zip arguments)).find? name ≠ none :=
    fun absent => (Table.find?_ofPairs_zip_eq_none counted).mp absent member
  rw [Option.isSome_iff_ne_none.mpr found, Bool.true_or]

/-- Outside of a call nothing has to be bound. -/
theorem forget (provides : Provides program names environment) :
    Provides program [] environment :=
  ⟨fun _ member => absurd member List.not_mem_nil, provides.resolves⟩

/-- Procedures of the program may be defined at any time. -/
theorem defineAll (provides : Provides program [] environment) {procedures : List Procedure}
    (members : ∀ procedure ∈ procedures, procedure ∈ program.procedures) :
    Provides program [] (environment.defineAll procedures) := by
  induction procedures generalizing environment with
  | nil => exact provides
  | cons procedure rest ih =>
      rw [List.forall_mem_cons] at members
      refine ih ⟨fun _ member => absurd member List.not_mem_nil, fun name => ?_⟩ members.2
      rw [Environment.procedure?_defineProcedure]
      split
      · exact .defined members.1 (Eq.symm ‹_›)
      · exact provides.resolves name

/-- The predefined procedures are there from the start. -/
theorem predefined (program : Program) : Provides program [] .predefined := by
  refine ⟨fun _ member => absurd member List.not_mem_nil, fun name => ?_⟩
  rw [Environment.procedure?_predefined]
  cases known : Builtin.ofName? name with
  | none => exact .missing known
  | some builtin => exact .predefined known

end Provides

namespace Session

/-- From every session that provides its names, a checked expression meets only permitted errors and
leaves the environment as it was. -/
def Guards (program : Program) (recur : Expression → Run Session Datum) : Prop :=
  ∀ expression names session, expression.Checked (Analysis.ofProgram program) names →
    Provides program names session.environment →
      (recur expression session).Safe program.Permits fun _ after =>
        after.environment = session.environment

section Step

variable {program : Program} {recur : Expression → Run Session Datum} {names : List String}
  {session : Session}

/-- A known name is bound, or its being unbound is permitted. -/
theorem safe_identifier {name : String}
    (known : (Analysis.ofProgram program).Knows names name)
    (provides : Provides program names session.environment) :
    RunError.Raises program.Permits (session.environment.lookup name) := by
  unfold Environment.lookup
  split
  · exact RunError.raises_ok _
  · rename_i unbound
    apply RunError.raises_error
    rcases known with bound | dynamic | defined
    · have found := provides.binds name bound
      rw [unbound] at found
      cases found
    · exact .inr dynamic
    · exact .inl (Analysis.isGlobal_iff.mp defined)

/-- A conditional with three checked operands meets only permitted errors. -/
theorem safe_conditional (guards : Guards program recur) {operands : List Expression}
    (counted : operands.length = 3)
    (checked : Expression.AllChecked (Analysis.ofProgram program) names operands)
    (provides : Provides program names session.environment) :
    (conditional recur operands session).Safe program.Permits fun _ _ => True := by
  obtain ⟨condition, consequent, alternative, rfl⟩ := List.length_eq_three.mp counted
  obtain ⟨tests, holds, fails, _⟩ := checked
  refine Run.safe_bind (guards condition names session tests provides) fun value after kept => ?_
  have still : Provides program names after.environment := kept ▸ provides
  split
  · exact (guards consequent names after holds still).imp fun _ _ _ => trivial
  · exact (guards alternative names after fails still).imp fun _ _ _ => trivial

/-- Checked operands meet only permitted errors, and leave the environment as it was. -/
theorem safe_operands (guards : Guards program recur) {operands : List Expression}
    (checked : Expression.AllChecked (Analysis.ofProgram program) names operands)
    (provides : Provides program names session.environment) :
    (Run.all recur operands session).Safe program.Permits fun values after =>
      values.length = operands.length ∧ after.environment = session.environment := by
  induction operands generalizing session with
  | nil => exact ⟨rfl, rfl⟩
  | cons operand rest ih =>
      refine Run.safe_bind (guards operand names session checked.1 provides) ?_
      intro value middle kept
      refine Run.safe_bind (ih checked.2 (kept ▸ provides)) ?_
      rintro values after ⟨counted, same⟩
      exact ⟨congrArg (· + 1) counted, same.trans kept⟩

/-- After the internal variables are bound, they are in scope as well. -/
theorem safe_values (guards : Guards program recur) {values : List (String × Expression)}
    (checked : Procedure.ValuesChecked (Analysis.ofProgram program) names values)
    (provides : Provides program names session.environment) :
    (Run.each (bindValue recur) values session).Safe program.Permits fun _ after =>
      Provides program (names ++ values.map Prod.fst) after.environment := by
  induction values generalizing names session with
  | nil =>
      rw [List.map_nil, List.append_nil]
      exact provides
  | cons definition rest ih =>
      obtain ⟨name, value⟩ := definition
      have bound : (bindValue recur (name, value) session).Safe program.Permits fun _ after =>
          Provides program (names ++ [name]) after.environment := by
        refine Run.safe_bind (guards value names session checked.1 provides) ?_
        intro datum middle kept
        show Provides program _ (middle.environment.defineVariable name datum)
        rw [kept]
        exact provides.defineVariable name datum
      refine Run.safe_bind bound fun _ middle provided => ?_
      have later := ih checked.2 provided
      rwa [List.append_assoc] at later

/-- Checked effects meet only permitted errors, and keep what is provided. -/
theorem safe_effects (guards : Guards program recur) {effects : List Expression}
    (checked : Expression.AllChecked (Analysis.ofProgram program) names effects)
    (provides : Provides program names session.environment) :
    (Run.each (fun effect => do let _ ← recur effect) effects session).Safe program.Permits
      fun _ after => Provides program names after.environment := by
  induction effects generalizing session with
  | nil => exact provides
  | cons effect rest ih =>
      have evaluated : ((do let _ ← recur effect : Run Session Unit) session).Safe program.Permits
          fun _ after => Provides program names after.environment := by
        refine Run.safe_bind (guards effect names session checked.1 provides) ?_
        intro _ after kept
        show Provides program names after.environment
        rwa [kept]
      exact Run.safe_bind evaluated fun _ middle provided => ih checked.2 provided

/-- The body of a checked procedure meets only permitted errors. -/
theorem safe_callBody (guards : Guards program recur) {procedure : Procedure}
    (checked : procedure.Checked (Analysis.ofProgram program))
    (provides : Provides program procedure.params session.environment) :
    (callBody recur procedure session).Safe program.Permits fun _ _ => True := by
  refine Run.safe_bind (safe_values guards checked.values provides) fun _ middle bound => ?_
  refine Run.safe_bind (safe_effects guards checked.effects bound) fun _ last still => ?_
  exact (guards procedure.body _ last checked.body still).imp fun _ _ _ => trivial

/-- A call of a checked procedure meets only permitted errors, whatever its arguments are. -/
theorem safe_callCode (guards : Guards program recur) {procedure : Procedure}
    (checked : procedure.Checked (Analysis.ofProgram program)) (arguments : List Datum)
    (provides : Provides program names session.environment) :
    (callCode recur procedure arguments session).Safe program.Permits fun _ _ => True := by
  unfold callCode
  split
  · rename_i counted
    apply Run.safe_between
    exact safe_callBody guards checked (provides.pushFrame counted)
  · trivial

/-- A predefined procedure is called with the wrong number of arguments only where the program has
another procedure in mind. -/
theorem raises_check {name : String} {builtin : Builtin} {count : Nat} (named : name ≠ "if")
    (fits : (Analysis.ofProgram program).Fits name count)
    (known : Builtin.ofName? name = some builtin) :
    RunError.Raises program.Permits (builtin.arity.check count) := by
  rw [Analysis.Fits, if_neg named] at fits
  rcases fits with defined | ⟨other, found, accepted⟩
  · obtain ⟨procedure, member, rfl⟩ := List.mem_map.mp (List.contains_iff_mem.mp defined)
    have redefines : program.Redefines := ⟨procedure, member, by rw [known]; rfl⟩
    unfold Arity.check
    repeat' split
    · exact RunError.raises_ok ()
    · exact RunError.raises_error redefines
    · exact RunError.raises_error redefines
  · obtain rfl : other = builtin := by rw [known] at found; exact (Option.some.inj found).symm
    rw [accepted]
    exact RunError.raises_ok ()

/-- An application that fits and calls no predefined procedure may come before the definition. -/
theorem permits_missing {name : String} {count : Nat} (named : name ≠ "if")
    (fits : (Analysis.ofProgram program).Fits name count)
    (unknown : Builtin.ofName? name = none) : program.Permits (.undefinedProcedure name) := by
  rw [Analysis.Fits, if_neg named] at fits
  rcases fits with defined | ⟨builtin, found, _⟩
  · obtain ⟨procedure, member, same⟩ := List.mem_map.mp (List.contains_iff_mem.mp defined)
    exact ⟨⟨procedure, member, same⟩, unknown⟩
  · rw [unknown] at found
    cases found

variable (callable : ∀ procedure ∈ program.procedures, procedure.name ≠ "if" →
  procedure.Checked (Analysis.ofProgram program))

include callable

/-- An application that fits meets only permitted errors. -/
theorem safe_applyProcedure (guards : Guards program recur) {name : String}
    {operands : List Expression} (named : name ≠ "if")
    (fits : (Analysis.ofProgram program).Fits name operands.length)
    (checked : Expression.AllChecked (Analysis.ofProgram program) names operands)
    (provides : Provides program names session.environment) :
    (applyProcedure recur name operands session).Safe program.Permits fun _ _ => True := by
  rw [← applyIn_headFirst]
  have resolves := provides.resolves name
  cases found : session.environment.procedure? name with
  | none =>
      rw [found] at resolves
      cases resolves with
      | missing unknown =>
          rw [applyIn, read_findProcedure_bind_none found]
          exact permits_missing named fits unknown
  | some target =>
      rw [applyIn, read_findProcedure_bind found]
      refine Run.safe_bind (safe_operands guards checked provides) ?_
      rintro arguments after ⟨counted, kept⟩
      rw [found] at resolves
      cases resolves with
      | predefined known =>
          apply Run.safe_within
          apply safe_apply (fun _ => trivial) trivial (fun _ => trivial)
          rw [counted]
          exact raises_check named fits known
      | defined member same =>
          have still : Provides program names after.environment := kept ▸ provides
          exact safe_callCode guards (callable _ member (same ▸ named)) arguments still

/-- One level of evaluation meets only permitted errors if the levels below it do. -/
theorem safe_evaluateWith (guards : Guards program recur) {expression : Expression}
    (checked : expression.Checked (Analysis.ofProgram program) names)
    (provides : Provides program names session.environment) :
    (evaluateWith recur expression session).Safe program.Permits fun _ _ => True := by
  cases expression with
  | constant literal =>
      obtain ⟨datum, read⟩ := checked
      rw [evaluateWith, read]
      trivial
  | quotation quoted =>
      obtain ⟨datum, read⟩ := checked
      rw [evaluateWith, read]
      trivial
  | identifier name =>
      exact (Run.safe_ofExcept (safe_identifier checked provides) session).imp fun _ _ _ => trivial
  | application procedure operands =>
      obtain ⟨fits, checked⟩ := checked
      rw [evaluateWith]
      split
      · rename_i named
        rw [Analysis.Fits, if_pos named] at fits
        exact safe_conditional guards fits checked provides
      · rename_i named
        exact safe_applyProcedure callable guards named fits checked provides

/-- A checked expression meets only permitted errors, with any fuel. -/
theorem guards_evaluate (fuel : Nat) : Guards program (evaluate fuel) := by
  induction fuel with
  | zero => exact fun _ _ _ _ _ => trivial
  | succ fuel ih =>
      intro expression names session checked provides
      have safe := safe_evaluateWith callable ih checked provides
      have ends := environment_of_evaluateIn .headFirst (fuel + 1) expression session
      rw [evaluateIn_headFirst] at ends
      change (evaluate (fuel + 1) expression session).Safe _ _ at safe
      cases ended : evaluate (fuel + 1) expression session with
      | ok value after =>
          rw [ended] at ends
          exact ends
      | error error after =>
          rw [ended] at safe
          exact safe
      | outOfFuel => trivial

end Step

section Forms

variable {program : Program} {evaluator : Expression → Run Session Datum}

/-- A checked definition meets only permitted errors, and procedures still come from the program. -/
theorem safe_performDefinition (guards : Guards program evaluator) {definition : Definition}
    {session : Session}
    (checked : ∀ value ∈ Compiler.topExpressions (.definition definition),
      value.Checked (Analysis.ofProgram program) [])
    (members : ∀ procedure ∈ definition.nested, procedure ∈ program.procedures)
    (provides : Provides program [] session.environment) :
    (performDefinition evaluator definition session).Safe program.Permits fun _ after =>
      Provides program [] after.environment := by
  cases definition with
  | value name value =>
      have passes := checked value (List.mem_singleton_self value)
      refine Run.safe_bind (guards value [] session passes provides) fun datum middle kept => ?_
      have defined := provides.defineVariable name datum
      rw [← kept] at defined
      exact defined.forget
  | procedure procedure =>
      show Provides program [] (session.environment.register procedure)
      rw [Environment.register_eq_defineAll]
      exact provides.defineAll members

mutual

/-- A checked form meets only permitted errors, and procedures still come from the program. -/
theorem safe_perform (guards : Guards program evaluator) {form : Form} {session : Session}
    (checked : ∀ expression ∈ Compiler.topExpressions form,
      expression.Checked (Analysis.ofProgram program) [])
    (members : ∀ procedure ∈ Definition.allNested form.definitions,
      procedure ∈ program.procedures)
    (provides : Provides program [] session.environment) :
    (perform evaluator form session).Safe program.Permits fun _ after =>
      Provides program [] after.environment := by
  cases form with
  | expression expression =>
      have passes := checked expression (List.mem_singleton_self expression)
      refine Run.safe_bind (guards expression [] session passes provides) fun _ after kept => ?_
      show Provides program [] after.environment
      rwa [kept]
  | definition definition =>
      have inside : ∀ procedure ∈ definition.nested, procedure ∈ program.procedures :=
        fun procedure member => members procedure (List.mem_append_left _ member)
      exact Run.safe_bind (safe_performDefinition guards checked inside provides)
        fun _ _ provided => provided
  | begin forms => exact safe_performAll guards checked members provides

/-- Checked forms meet only permitted errors, and procedures still come from the program. -/
theorem safe_performAll (guards : Guards program evaluator) {forms : List Form}
    {session : Session}
    (checked : ∀ expression ∈ Compiler.allTopExpressions forms,
      expression.Checked (Analysis.ofProgram program) [])
    (members : ∀ procedure ∈ Definition.allNested (Form.allDefinitions forms),
      procedure ∈ program.procedures)
    (provides : Provides program [] session.environment) :
    (performAll evaluator forms session).Safe program.Permits fun _ after =>
      Provides program [] after.environment := by
  cases forms with
  | nil => exact provides
  | cons form rest =>
      rw [Form.allDefinitions, Definition.allNested_append] at members
      obtain ⟨checkedHead, checkedTail⟩ := List.forall_mem_append.mp checked
      obtain ⟨membersHead, membersTail⟩ := List.forall_mem_append.mp members
      refine Run.safe_bind (safe_perform guards checkedHead membersHead provides) ?_
      intro values middle provided
      exact Run.safe_bind (safe_performAll guards checkedTail membersTail provided)
        fun _ _ last => last

end

end Forms

/-- A program that compiles fails in a fresh session only with permitted errors. -/
theorem permits_of_compile {program : Program} {code : Code} {fuel : Nat} {sink : Sink}
    {error : RunError} {session : Session} (compiled : Compiler.compile program = .ok code)
    (failed : run fuel program (.fresh sink) = .error error session) : program.Permits error := by
  obtain ⟨emits, _, _⟩ := Compiler.emits_of_compile compiled
  have checked := emits.checked
  have callable : ∀ procedure ∈ program.procedures, procedure.name ≠ "if" →
      procedure.Checked (Analysis.ofProgram program) := fun procedure member named =>
    checked.procedures procedure member named (Analysis.isProcedure_name member)
  have provides : Provides program [] (Session.fresh sink).environment := .predefined program
  have safe := safe_performAll (guards_evaluate callable fuel) checked.expressions
    (fun _ => id) provides
  rw [← run_eq_performAll, failed] at safe
  exact safe

/-- The fee reads the rate of a caller, and the last form calls it from outside. -/
def unpaidProgram : Program :=
  ⟨[.definition (.procedure ⟨"fee", [], [], [], .identifier "rate"⟩),
    .definition (.procedure ⟨"pay", ["rate"], [], [], .application "fee" []⟩),
    .expression (.application "fee" [])]⟩

/-- The missing rate is an error that compilation permits. -/
theorem unpaidProgram_permits_rate :
    ∃ code session, Compiler.compile unpaidProgram = .ok code ∧
      run 2 unpaidProgram (.fresh .unlimited) = .error (.undefinedVariable "rate") session ∧
        unpaidProgram.Permits (.undefinedVariable "rate") := by
  obtain ⟨code, compiled⟩ : ∃ code, Compiler.compile unpaidProgram = .ok code := ⟨_, rfl⟩
  obtain ⟨session, failed⟩ : ∃ session, run 2 unpaidProgram (.fresh .unlimited) =
      .error (.undefinedVariable "rate") session := ⟨_, rfl⟩
  exact ⟨code, session, compiled, failed, permits_of_compile compiled failed⟩

end Session

end SmallScheme
