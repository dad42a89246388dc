/-
This file shows that the statements of a compiled program do what its forms do in a session.
-/

import SmallScheme.Proofs.Compiler.Kinds
import SmallScheme.Proofs.Compiler.Simulation
import SmallScheme.Proofs.Session.Forms

namespace SmallScheme.Compiler

/-- Outside of every call, the machine represents the session, every global has a value of the kinds
declared so far, and the machine admits values of the final kinds. -/
structure Faithful (program : Program) (functions : List Code.Function)
    (finals : List (String × Kind)) (base : String) (kinds : List (String × Kind))
    (session : Session) (machine : Machine) : Prop where
  represents : Represents program functions session.environment machine
  outside : session.environment.frames = []
  admits : Kind.Admits kinds session.environment.globals
  declared : ∀ name kind, finals.lookup name = some kind →
    ∃ value, machine.globals.find? name = some ⟨name, kind, value⟩
  prints : Prints base session.sink machine.output

mutual

/-- The expressions that a form evaluates outside of every call. -/
def topExpressions : Form → List Expression
  | .expression expression => [expression]
  | .definition definition => (definition.value?.map Prod.snd).toList
  | .begin forms => allTopExpressions forms

/-- The expressions that a program evaluates outside of every call. -/
def allTopExpressions : List Form → List Expression
  | [] => []
  | form :: rest => topExpressions form ++ allTopExpressions rest

end

section Forms

variable {program : Program} {functions : List Code.Function} {finals : List (String × Kind)}
  {base : String} {kinds : List (String × Kind)} {slack : Slack} {fuel more : Nat}

/-- Wider kinds keep the machine faithful. -/
theorem Faithful.widen {later : List (String × Kind)} {session : Session} {machine : Machine}
    (faithful : Faithful program functions finals base kinds session machine)
    (widens : Kind.Widens kinds later) :
    Faithful program functions finals base later session machine :=
  { faithful with admits := faithful.admits.widen widens }

/-- The output takes no part in what a machine represents. -/
theorem Represents.output {environment : Environment} {machine : Machine}
    (represents : Represents program functions environment machine) (output : String) :
    Represents program functions environment { machine with output := output } :=
  ⟨represents.globals, represents.undeclared, represents.procedures, represents.builtins,
    represents.frames, represents.locals⟩

/-- An evaluation keeps the machine faithful. -/
theorem Faithful.of_linked {session later : Session} {machine after : Machine}
    (faithful : Faithful program functions finals base kinds session machine)
    (linked : Linked base session.environment machine later after) :
    Faithful program functions finals base kinds later after := by
  have same := linked.environment
  refine ⟨?_, same ▸ faithful.outside, same ▸ faithful.admits, ?_, linked.prints⟩
  · rw [same, linked.image]
    exact faithful.represents.output _
  · rw [linked.image]
    exact faithful.declared

/-- The code of an expression gives a value of the kind that the compiler expects. -/
theorem follows_evaluate {expression : Expression} {code : Code.Expr}
    (simulates : SimulatesAt program functions slack base
      (Session.evaluateIn .operandsFirst fuel) (Machine.call functions more) expression)
    (emits : Emits (Analysis.ofProgram program) functions .empty expression code) :
    Run.Follows slack
      (fun datum value => SameValue datum value ∧ (kindAfter kinds expression).admits value = true)
      (Faithful program functions finals base kinds) (Faithful program functions finals base kinds)
      (Session.evaluateIn .operandsFirst fuel expression)
      (Machine.evaluate (Machine.call functions more) .empty code) := by
  intro session machine faithful
  have holds : Scope.empty.Holds .empty session.environment := nofun
  have unhidden : Unhidden program session.environment .empty expression := by
    intro name _
    rw [Environment.local?, faithful.outside]
    exact .inr rfl
  have agreed := simulates.value faithful.represents holds unhidden emits session
    machine ⟨rfl, rfl, faithful.prints⟩
  refine agreed.refine ?_ fun _ _ linked => faithful.of_linked linked
  rintro datum _ later ended rfl
  exact ⟨rfl, admits_of_evaluateIn faithful.outside faithful.admits ended⟩

/-- A global takes a value. -/
theorem Represents.defineGlobal {environment : Environment} {machine : Machine} {name : String}
    (represents : Represents program functions environment machine)
    (known : (Analysis.ofProgram program).isGlobal name = true) (kind : Kind) (datum : Datum) :
    Represents program functions
      { environment with globals := environment.globals.insert name datum }
      { machine with
        globals := machine.globals.insert name ⟨name, kind, some (Value.ofDatum datum)⟩ } := by
  refine ⟨?_, ?_, represents.procedures, represents.builtins, represents.frames, represents.locals⟩
  · intro other isGlobal
    simp only [Table.find?_insert]
    by_cases same : other = name
    · exact ⟨kind, by simp [same]⟩
    · simpa [same] using represents.globals other isGlobal
  · intro other notGlobal
    have different : other ≠ name := by
      rintro rfl
      exact absurd known (by simp [notGlobal])
    simpa [Table.find?_insert, different] using represents.undeclared other notGlobal

/-- The final kind of a global admits what its definitions give it. -/
theorem Faithful.defineGlobal {session : Session} {machine : Machine} {name : String} {kind : Kind}
    {datum : Datum} (faithful : Faithful program functions finals base kinds session machine)
    (known : (Analysis.ofProgram program).isGlobal name = true)
    (admitted : kind.admits (Value.ofDatum datum) = true)
    (widens : Kind.Widens (Assembly.declareKind name kind kinds) finals) :
    ∃ after, Machine.defineGlobal name (Value.ofDatum datum) machine = .ok () after ∧
      Faithful program functions finals base (Assembly.declareKind name kind kinds)
        (session.onEnvironment (·.defineVariable name datum)) after := by
  obtain ⟨declared, lookedUp, admits⟩ := Assembly.admits_declareKind admitted kinds
  obtain ⟨final, reached, wider⟩ := widens name declared lookedUp
  obtain ⟨old, found⟩ := faithful.declared name final reached
  have admitsLast : final.admits (Value.ofDatum datum) = true := by
    rcases wider with rfl | rfl
    · exact admits
    · rfl
  have ran : Machine.defineGlobal name (Value.ofDatum datum) machine = .ok ()
      { machine with
        globals := machine.globals.insert name ⟨name, final, some (Value.ofDatum datum)⟩ } := by
    simp [Machine.defineGlobal, Run.bind_apply, Run.read, found, Global.define, admitsLast,
      Run.ofExcept, Run.pure, Run.update]
  have defined : session.onEnvironment (·.defineVariable name datum) =
      ⟨{ session.environment with globals := session.environment.globals.insert name datum },
        session.sink⟩ := by
    simp [Session.onEnvironment, Environment.defineVariable, faithful.outside]
  rw [defined]
  refine ⟨_, ran, faithful.represents.defineGlobal known final datum, faithful.outside,
    Assembly.admits_insert faithful.admits admitted, ?_, faithful.prints⟩
  intro other last lastly
  simp only [Table.find?_insert]
  by_cases same : other = name
  · subst same
    obtain rfl : final = last := by simpa [reached] using lastly
    exact ⟨_, if_pos rfl⟩
  · simpa [same] using faithful.declared other last lastly

/-- A procedure takes the code of its definition. -/
theorem Represents.bindProcedure {environment : Environment} {machine : Machine}
    {procedure : Procedure} {index : Nat} {body : Code.Body}
    (represents : Represents program functions environment machine)
    (member : procedure ∈ program.procedures)
    (found : Machine.definition? functions procedure.name index = some body)
    (emits : EmitsBody (Analysis.ofProgram program) functions procedure body) :
    Represents program functions
      (environment.defineProcedure procedure.name (.code procedure))
      { machine with
        procedures := machine.procedures.insert procedure.name
          ⟨procedure.name, some (.definition procedure.name index)⟩ } := by
  have known := Analysis.isProcedure_name member
  refine ⟨represents.globals, represents.undeclared, ?_, ?_, represents.frames, represents.locals⟩
  · intro other isProcedure
    simp only [Environment.procedure?_defineProcedure, Table.find?_insert]
    by_cases same : other = procedure.name
    · subst same
      exact ⟨_, if_pos rfl, by simpa using Carries.defined rfl member found emits⟩
    · simpa [same] using represents.procedures other isProcedure
  · intro other notProcedure
    have different : other ≠ procedure.name := by
      rintro rfl
      exact absurd known (by simp [notProcedure])
    rw [Environment.procedure?_defineProcedure, if_neg different]
    exact represents.builtins other notProcedure

/-- The statements of a procedure bind it and the procedures inside it. -/
theorem Faithful.bindAll {procedures : List Procedure} {statements : List Code.Statement}
    (binds : List.Forall₂ (Binds (Analysis.ofProgram program) functions) procedures statements)
    (members : ∀ procedure ∈ procedures, procedure ∈ program.procedures)
    {session : Session} {machine : Machine}
    (faithful : Faithful program functions finals base kinds session machine) :
    ∃ after, Run.each (Machine.execute functions more) statements machine = .ok () after ∧
      Faithful program functions finals base kinds
        (session.onEnvironment (·.defineAll procedures)) after := by
  induction binds generalizing session machine with
  | nil => exact ⟨machine, rfl, faithful⟩
  | @cons procedure _ _ _ bind _ ih =>
      obtain ⟨index, body, rfl, found, emits⟩ := bind
      rw [List.forall_mem_cons] at members
      have bound : Faithful program functions finals base kinds
          (session.onEnvironment (·.defineProcedure procedure.name (.code procedure)))
          { machine with
            procedures := machine.procedures.insert procedure.name
              ⟨procedure.name, some (.definition procedure.name index)⟩ } :=
        ⟨faithful.represents.bindProcedure members.1 found emits, faithful.outside,
          faithful.admits, faithful.declared, faithful.prints⟩
      exact ih members.2 bound

/-- The statements of a definition do what the definition does. -/
theorem follows_definition {definition : Definition} {statements : List Code.Statement}
    {later : List (String × Kind)}
    (emits : EmitsForm (Analysis.ofProgram program) functions kinds (.definition definition)
      statements later)
    (member : definition ∈ program.definitions) (widens : Kind.Widens later finals)
    (simulates : ∀ expression ∈ topExpressions (.definition definition),
      SimulatesAt program functions slack base (Session.evaluateIn .operandsFirst fuel)
        (Machine.call functions more) expression) :
    Run.Follows slack (fun _ _ => True) (Faithful program functions finals base kinds)
      (Faithful program functions finals base later)
      (Session.performDefinition (Session.evaluateIn .operandsFirst fuel) definition)
      (Run.each (Machine.execute functions more) statements) := by
  cases emits with
  | @value _ name value code emits =>
      have known := Analysis.isGlobal_iff.mpr ⟨value, member⟩
      have inside : value ∈ topExpressions (.definition (.value name value)) :=
        List.mem_singleton_self value
      rw [Run.each_singleton, Machine.execute, Session.performDefinition, Session.bindValue]
      refine Run.follows_bind (follows_evaluate (simulates value inside) emits) ?_
        fun _ _ faithful => faithful.widen (Assembly.widens_declareKind _ _ _)
      rintro datum _ ⟨rfl, admitted⟩ session machine faithful
      obtain ⟨after, ran, defined⟩ := faithful.defineGlobal known admitted widens
      rw [ran]
      exact .inl ⟨trivial, defined⟩
  | @procedure _ procedure _ binds =>
      intro session machine faithful
      obtain ⟨after, ran, bound⟩ := faithful.bindAll binds
        fun inner nested => Definition.mem_allNested member nested
      rw [ran, Session.performDefinition]
      simp only [← Environment.register_eq_defineAll] at bound
      exact .inl ⟨trivial, bound⟩

mutual

/-- The statements of a form do what the form does. -/
theorem follows_perform {form : Form} {statements : List Code.Statement}
    {kinds later : List (String × Kind)}
    (emits : EmitsForm (Analysis.ofProgram program) functions kinds form statements later)
    (members : ∀ definition ∈ form.definitions, definition ∈ program.definitions)
    (widens : Kind.Widens later finals)
    (simulates : ∀ expression ∈ topExpressions form,
      SimulatesAt program functions slack base (Session.evaluateIn .operandsFirst fuel)
        (Machine.call functions more) expression) :
    Run.Follows slack (fun _ _ => True) (Faithful program functions finals base kinds)
      (Faithful program functions finals base later)
      (Session.perform (Session.evaluateIn .operandsFirst fuel) form)
      (Run.each (Machine.execute functions more) statements) := by
  cases form with
  | expression expression =>
      cases emits with
      | expression emits =>
          rw [Run.each_singleton, Machine.execute, Session.perform]
          exact Run.follows_bind
            (follows_evaluate (simulates expression (List.mem_singleton_self expression)) emits)
            (fun _ _ _ => Run.follows_pure trivial) fun _ _ => id
  | definition definition =>
      have defined := follows_definition emits (members definition (List.mem_singleton_self _))
        widens simulates
      rw [Session.perform]
      exact defined.map_first fun _ _ => id
  | begin forms =>
      cases emits with
      | begin emits => exact follows_performAll emits members widens simulates

/-- The statements of a program do what its forms do. -/
theorem follows_performAll {forms : List Form} {statements : List Code.Statement}
    {kinds later : List (String × Kind)}
    (emits : EmitsForms (Analysis.ofProgram program) functions kinds forms statements later)
    (members : ∀ definition ∈ Form.allDefinitions forms, definition ∈ program.definitions)
    (widens : Kind.Widens later finals)
    (simulates : ∀ expression ∈ allTopExpressions forms,
      SimulatesAt program functions slack base (Session.evaluateIn .operandsFirst fuel)
        (Machine.call functions more) expression) :
    Run.Follows slack (fun _ _ => True) (Faithful program functions finals base kinds)
      (Faithful program functions finals base later)
      (Session.performAll (Session.evaluateIn .operandsFirst fuel) forms)
      (Run.each (Machine.execute functions more) statements) := by
  cases forms with
  | nil =>
      cases emits
      exact Run.follows_pure trivial
  | cons form rest =>
      cases emits with
      | cons first others =>
          rw [Form.allDefinitions, List.forall_mem_append] at members
          rw [allTopExpressions, List.forall_mem_append] at simulates
          rw [Session.performAll, Run.each_append]
          have onward := others.declaresKinds.widens
          refine Run.follows_bind
            (follows_perform first members.1 (onward.trans widens) simulates.1) (fun _ _ _ => ?_)
            fun _ _ faithful => faithful.widen onward
          have tail := follows_performAll others members.2 widens simulates.2
          exact tail.map_first fun _ _ => id

end

end Forms

section Runs

variable {program : Program} {code : Code}

/-- A machine starts with every global of the program undefined. -/
theorem find?_globals_ofCode (unique : (code.globals.map Prod.fst).Nodup) {name : String}
    {kind : Kind} (declared : code.globals.lookup name = some kind) :
    (Machine.ofCode code).globals.find? name = some ⟨name, kind, none⟩ := by
  have names : (code.globals.map fun entry => (entry.1, Global.new entry.1 entry.2)).map Prod.fst =
      code.globals.map Prod.fst := by
    rw [List.map_map]
    rfl
  rw [Machine.ofCode, Table.find?_ofPairs_of_nodup (names ▸ unique), Table.lookup_map_values,
    declared]
  rfl

/-- A machine starts with the predefined procedures. -/
theorem find?_procedures_ofCode (predefined : DeclaresPredefined code) {name : String}
    (declared : name ∈ declaredNames code) :
    (Machine.ofCode code).procedures.find? name =
      some ⟨name, (Builtin.ofName? name).map .host⟩ := by
  have slots := Table.lookup_map_values (A := Option Builtin)
    (fun name builtin => ProcedureSlot.mk name (builtin.map Callee.host))
    code.procedures.reverse name
  rw [Machine.ofCode, Table.find?_ofPairs, ← List.map_reverse, slots]
  cases found : code.procedures.reverse.lookup name with
  | none =>
      obtain ⟨entry, member, rfl⟩ := List.mem_map.mp declared
      have absent := List.lookup_eq_none_iff.mp found entry (List.mem_reverse.mpr member)
      simp at absent
  | some builtin =>
      obtain ⟨before, after, split, _⟩ := List.lookup_eq_some_iff.mp found
      have member : (name, builtin) ∈ code.procedures := by
        rw [← List.mem_reverse, split]
        exact List.mem_append_right _ List.mem_cons_self
      have known : builtin = Builtin.ofName? name := predefined _ member
      rw [known, Option.map_some]

/-- A machine starts as a session does. -/
theorem faithful_ofCode (compiled : compile program = .ok code) {sink : Sink}
    (accepts : ∀ attempts text piece, sink.refuses attempts text piece = none) :
    Faithful program code.functions code.globals sink.text [] (.fresh sink)
      (Machine.ofCode code) := by
  obtain ⟨emits, procedures, predefined⟩ := emits_of_compile compiled
  have kinds := emits.declaresKinds
  have unique := kinds.nodup List.nodup_nil
  refine ⟨⟨?_, ?_, ?_, ?_, ?_, ?_⟩, rfl, ?_, ?_, accepts, ?_⟩
  · intro name isGlobal
    obtain ⟨value, defined⟩ := Analysis.isGlobal_iff.mp isGlobal
    obtain ⟨kind, declared⟩ := kinds.declared name value defined
    exact ⟨kind, find?_globals_ofCode unique declared⟩
  · exact fun _ _ => rfl
  · intro name isProcedure
    refine ⟨_, find?_procedures_ofCode predefined (procedures name isProcedure), ?_⟩
    rw [Session.fresh, Environment.procedure?_predefined]
    cases Builtin.ofName? name with
    | none => exact .undefined
    | some builtin => exact .predefined builtin
  · exact fun name _ => Environment.procedure?_predefined name
  · exact fun _ _ => rfl
  · exact fun _ bound => nomatch bound
  · exact fun _ _ bound => nomatch bound
  · exact fun _ _ declared => ⟨_, find?_globals_ofCode unique declared⟩
  · exact String.append_empty.symm

/-- A compiled program does what its forms do. -/
theorem agrees_run (compiled : compile program = .ok code) {slack : Slack} {fuel more : Nat}
    {sink : Sink} (accepts : ∀ attempts text piece, sink.refuses attempts text piece = none)
    (simulates : ∀ expression ∈ allTopExpressions program.forms,
      SimulatesAt program code.functions slack sink.text (Session.evaluateIn .operandsFirst fuel)
        (Machine.call code.functions more) expression) :
    Outcome.Agrees slack (fun _ _ => True)
      (fun session machine => session.sink.text = sink.text ++ machine.output)
      (Session.performAll (Session.evaluateIn .operandsFirst fuel) program.forms (.fresh sink))
      (Machine.run more code) := by
  obtain ⟨emits, _⟩ := emits_of_compile compiled
  have follows := follows_performAll emits (fun _ => id) (.refl code.globals) simulates
  have agreed := follows _ _ (faithful_ofCode compiled accepts)
  exact agreed.weaken (fun _ _ => id) fun _ _ faithful => faithful.prints.text

/-- A compiled program ends as its forms do, with as much fuel. -/
theorem agrees_run_of_le (compiled : compile program = .ok code) {fuel more : Nat}
    (enough : fuel ≤ more) {sink : Sink}
    (accepts : ∀ attempts text piece, sink.refuses attempts text piece = none) :
    Outcome.Agrees .firstFuel (fun _ _ => True)
      (fun session machine => session.sink.text = sink.text ++ machine.output)
      (Session.performAll (Session.evaluateIn .operandsFirst fuel) program.forms (.fresh sink))
      (Machine.run more code) :=
  agrees_run compiled accepts fun expression _ =>
    simulates_evaluateIn program code.functions sink.text enough expression

/-- The forms end as their compiled program does, with the fuel that this takes. -/
theorem agrees_run_of_needed (compiled : compile program = .ok code) {fuel more : Nat}
    (enough : needed program more + depths (allTopExpressions program.forms) ≤ fuel) {sink : Sink}
    (accepts : ∀ attempts text piece, sink.refuses attempts text piece = none) :
    Outcome.Agrees .secondFuel (fun _ _ => True)
      (fun session machine => session.sink.text = sink.text ++ machine.output)
      (Session.performAll (Session.evaluateIn .operandsFirst fuel) program.forms (.fresh sink))
      (Machine.run more code) := by
  refine agrees_run compiled accepts fun expression inside => ?_
  have bounded := depth_le_depths inside
  exact simulates_call more (by omega)

/-- A compiled program fails exactly as its forms do if procedures are looked up late. -/
theorem run_eq_error_iff (compiled : compile program = .ok code) {sink : Sink}
    (accepts : ∀ attempts text piece, sink.refuses attempts text piece = none) (error : RunError)
    (text : String) :
    (∃ more machine, Machine.run more code = .error error machine ∧
        text = sink.text ++ machine.output) ↔
      ∃ fuel session, Session.performAll (Session.evaluateIn .operandsFirst fuel) program.forms
          (.fresh sink) = .error error session ∧ session.sink.text = text := by
  constructor
  · rintro ⟨more, machine, ran, rfl⟩
    have enough := Nat.le_refl (needed program more + depths (allTopExpressions program.forms))
    have backward := (agrees_run_of_needed compiled enough accepts).swap
    rw [ran] at backward
    obtain ⟨session, failed, displayed⟩ := backward.exists_error (fun _ => id) nofun
    exact ⟨_, session, failed, displayed⟩
  · rintro ⟨fuel, session, failed, rfl⟩
    have forward := agrees_run_of_le compiled (Nat.le_refl fuel) accepts
    rw [failed] at forward
    obtain ⟨machine, ran, displayed⟩ := forward.exists_error (fun _ => id) nofun
    exact ⟨fuel, machine, ran, displayed⟩

end Runs

end SmallScheme.Compiler
