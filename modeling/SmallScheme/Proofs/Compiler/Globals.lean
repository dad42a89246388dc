/-
This file shows that every global of a session has a value of the kind that the compiler declares for
it, and that no definition of a compiled program meets a value of another kind.
-/

import Mathlib.Data.List.Nodup
import SmallScheme.Proofs.Compiler.Runs
import SmallScheme.Proofs.Session.Effects

namespace SmallScheme.Compiler

/-- Outside of every call, every global has a value of its kind. -/
structure Typed (kinds : List (String × Kind)) (environment : Environment) : Prop where
  outside : environment.frames = []
  admits : Kind.Admits kinds environment.globals

/-- Wider kinds admit the same values. -/
theorem Typed.widen {kinds later : List (String × Kind)} {environment : Environment}
    (typed : Typed kinds environment) (widens : Kind.Widens kinds later) :
    Typed later environment :=
  ⟨typed.outside, typed.admits.widen widens⟩

/-- A global that is defined with a value of the kind is declared with it. -/
theorem Typed.defineVariable {kinds : List (String × Kind)} {environment : Environment}
    {name : String} {kind : Kind} {datum : Datum} (typed : Typed kinds environment)
    (admitted : kind.admits (Value.ofDatum datum) = true) :
    Typed (Assembly.declareKind name kind kinds) (environment.defineVariable name datum) := by
  have defined : environment.defineVariable name datum =
      { environment with globals := environment.globals.insert name datum } := by
    simp [Environment.defineVariable, typed.outside]
  rw [defined]
  exact ⟨typed.outside, Assembly.admits_insert typed.admits admitted⟩

/-- Procedures are no globals. -/
theorem Typed.register {kinds : List (String × Kind)} {environment : Environment}
    (typed : Typed kinds environment) (procedure : Procedure) :
    Typed kinds (environment.register procedure) := by
  rw [Environment.register_eq_defineAll]
  constructor
  · rw [Environment.frames_defineAll, typed.outside]
  · rw [Environment.globals_defineAll]
    exact typed.admits

/-- A fresh session has no global. -/
theorem typed_fresh (sink : Sink) : Typed [] (Session.fresh sink).environment := by
  constructor
  · rfl
  · intro name datum bound
    cases bound

section Forms

variable {analysis : Analysis} {functions : List Code.Function} {order : Session.Order} {fuel : Nat}

/-- However a definition ends, the globals have values of the kinds declared after it. -/
theorem typed_performDefinition {kinds later : List (String × Kind)} {definition : Definition}
    {statements : List Code.Statement} {session : Session}
    (emits : EmitsForm analysis functions kinds (.definition definition) statements later)
    (typed : Typed kinds session.environment) :
    (Session.performDefinition (Session.evaluateIn order fuel) definition session).Ends
      (Typed later ·.environment) := by
  cases emits with
  | @value _ name value _ _ =>
      apply Run.ends_bind (Session.environment_of_evaluateIn order fuel value session)
      · intro middle kept
        rw [kept]
        exact typed.widen (Assembly.widens_declareKind _ _ _)
      · intro datum middle ended kept
        have admitted := admits_of_evaluateIn typed.outside typed.admits ended
        show Typed _ (middle.environment.defineVariable name datum)
        rw [kept]
        exact typed.defineVariable admitted
  | @procedure _ procedure _ _ => exact typed.register procedure

mutual

/-- However a form ends, the globals have values of the kinds declared after it. -/
theorem typed_perform {kinds later : List (String × Kind)} {form : Form}
    {statements : List Code.Statement} {session : Session}
    (emits : EmitsForm analysis functions kinds form statements later)
    (typed : Typed kinds session.environment) :
    (Session.perform (Session.evaluateIn order fuel) form session).Ends
      (Typed later ·.environment) := by
  cases form with
  | expression expression =>
      cases emits
      have steady (middle : Session) (kept : middle.environment = session.environment) :
          Typed kinds middle.environment := by
        rw [kept]
        exact typed
      apply Run.ends_bind (Session.environment_of_evaluateIn order fuel expression session) steady
      intro datum middle _ kept
      exact steady middle kept
  | definition definition =>
      apply Run.ends_bind (typed_performDefinition emits typed) fun _ => id
      intro _ middle _ defined
      exact defined
  | begin forms =>
      cases emits with
      | begin emits => exact typed_performAll emits typed

/-- However a program ends, the globals have values of the kinds declared after it. -/
theorem typed_performAll {kinds later : List (String × Kind)} {forms : List Form}
    {statements : List Code.Statement} {session : Session}
    (emits : EmitsForms analysis functions kinds forms statements later)
    (typed : Typed kinds session.environment) :
    (Session.performAll (Session.evaluateIn order fuel) forms session).Ends
      (Typed later ·.environment) := by
  cases forms with
  | nil =>
      cases emits
      exact typed
  | cons form rest =>
      cases emits with
      | cons first others =>
          apply Run.ends_bind (typed_perform first typed)
          · intro middle head
            exact head.widen others.declaresKinds.widens
          · intro values middle _ head
            apply Run.ends_bind (typed_performAll others head) fun _ => id
            intro more after _ tail
            exact tail

end

end Forms

/-- A part of the forms has statements of its own. -/
theorem EmitsForms.of_append {analysis : Analysis} {functions : List Code.Function}
    {kinds later : List (String × Kind)} {done rest : List Form} {statements : List Code.Statement}
    (emits : EmitsForms analysis functions kinds (done ++ rest) statements later) :
    ∃ first middle, EmitsForms analysis functions kinds done first middle ∧
      Kind.Widens middle later := by
  induction done generalizing kinds statements with
  | nil => exact ⟨[], kinds, .nil, emits.declaresKinds.widens⟩
  | cons form done inductionHypothesis =>
      cases emits with
      | cons head others =>
          obtain ⟨first, middle, emitted, widens⟩ := inductionHypothesis others
          exact ⟨_, middle, .cons head emitted, widens⟩

/-- The statements before a definition carry out forms after which the definition meets the kinds
that the code of its expression was made for. -/
inductive Reaches (analysis : Analysis) (functions : List Code.Function)
    (kinds : List (String × Kind)) (definitions : List Definition) (before : List Code.Statement)
    (name : String) (code : Code.Expr) (later : List (String × Kind)) : Prop
  | intro {earlier : List Form} {value : Expression} {middle : List (String × Kind)}
      (forms : EmitsForms analysis functions kinds earlier before middle)
      (emits : Emits analysis functions .empty value code)
      (widens : Kind.Widens (Assembly.declareKind name (kindAfter middle value) middle) later)
      (defined : .value name value ∈ definitions)
      (known : Form.allDefinitions earlier ⊆ definitions) :
      Reaches analysis functions kinds definitions before name code later

/-- Statements that bind procedures define no global. -/
theorem not_mem_of_binds {analysis : Analysis} {functions : List Code.Function}
    {procedures : List Procedure} {statements : List Code.Statement}
    (binds : List.Forall₂ (Binds analysis functions) procedures statements) (name : String)
    (code : Code.Expr) : .define name code ∉ statements := by
  induction binds with
  | nil => exact List.not_mem_nil
  | cons bind _ inductionHypothesis =>
      obtain ⟨index, body, bound, _⟩ := bind
      simp [bound, inductionHypothesis]

/-- An item of two lists stands after all of the first one or among it. -/
theorem append_eq_append_cons {A : Type} {first others before after : List A} {item : A}
    (parts : first ++ others = before ++ item :: after) :
    (∃ between, before = first ++ between ∧ others = between ++ item :: after) ∨
      ∃ between, first = before ++ item :: between := by
  rcases List.append_eq_append_iff.mp parts with ⟨between, ahead, behind⟩ | ⟨between, ahead, behind⟩
  · exact .inl ⟨between, ahead, behind⟩
  · cases between with
    | nil => exact .inl ⟨[], by simpa using ahead.symm, behind.symm⟩
    | cons head rest =>
        obtain ⟨rfl, _⟩ := List.cons.inj behind
        exact .inr ⟨rest, ahead⟩

section Definitions

variable {analysis : Analysis} {functions : List Code.Function} {name : String}
  {code : Code.Expr}

mutual

/-- A definition among the statements of a form is reached with the kinds declared so far. -/
theorem EmitsForm.reaches {kinds later : List (String × Kind)} {form : Form}
    {statements before after : List Code.Statement}
    (emits : EmitsForm analysis functions kinds form statements later)
    (parts : statements = before ++ .define name code :: after) :
    Reaches analysis functions kinds form.definitions before name code later := by
  cases form with
  | expression expression =>
      cases emits
      cases before <;> simp at parts
  | definition definition =>
      cases emits with
      | value emits =>
          cases before with
          | nil =>
              simp only [List.nil_append, List.cons.injEq, Code.Statement.define.injEq] at parts
              obtain ⟨⟨rfl, rfl⟩, _⟩ := parts
              exact .intro .nil emits (.refl _) (List.mem_singleton_self _) (List.nil_subset _)
          | cons first rest => simp at parts
      | procedure binds =>
          have absent := not_mem_of_binds binds name code
          simp [parts] at absent
  | begin forms =>
      cases emits with
      | begin emits => exact emits.reaches parts

/-- A definition among the statements of a program is reached with the kinds declared so far. -/
theorem EmitsForms.reaches {kinds later : List (String × Kind)} {forms : List Form}
    {statements before after : List Code.Statement}
    (emits : EmitsForms analysis functions kinds forms statements later)
    (parts : statements = before ++ .define name code :: after) :
    Reaches analysis functions kinds (Form.allDefinitions forms) before name code later := by
  cases forms with
  | nil =>
      cases emits
      simp at parts
  | cons form rest =>
      cases emits with
      | @cons _ middle _ _ _ first others head tail =>
          rcases append_eq_append_cons parts with ⟨between, rfl, behind⟩ | ⟨between, inside⟩
          · obtain ⟨forms, emits, widens, defined, known⟩ := tail.reaches behind
            refine .intro (.cons head forms) emits widens (List.mem_append_right _ defined) ?_
            exact List.append_subset.mpr ⟨List.subset_append_left _ _,
              List.Subset.trans known (List.subset_append_right _ _)⟩
          · obtain ⟨forms, emits, widens, defined, known⟩ := head.reaches inside
            exact .intro forms emits (widens.trans tail.declaresKinds.widens)
              (List.mem_append_left _ defined)
              (List.Subset.trans known (List.subset_append_left _ _))

end

end Definitions

section Programs

variable {program : Program} {code : Code}

/-- A definition of a compiled program that is reached with a value takes the value. -/
theorem defineGlobal_of_reached (compiled : compile program = .ok code) {fuel : Nat}
    {before after : List Code.Statement} {name : String} {expression : Code.Expr}
    (parts : code.main = before ++ .define name expression :: after) {machine later : Machine}
    {value : Value}
    (reached : Run.each (Machine.execute code.functions fuel) before (.ofCode code) =
      .ok () machine)
    (evaluated : Machine.evaluate (Machine.call code.functions fuel) .empty expression machine =
      .ok value later) :
    ∃ last, Machine.defineGlobal name value later = .ok () last := by
  obtain ⟨emits, _⟩ := emits_of_compile compiled
  obtain @⟨earlier, source, middle, forms, emitted, widens, defined, known⟩ := emits.reaches parts
  -- A session with enough fuel gets as far as the machine did.
  have simulates (other : Expression) (inside : other ∈ source :: allTopExpressions earlier) :
      SimulatesAt program code.functions .secondFuel Sink.unlimited.text
        (Session.evaluateIn .operandsFirst
          (needed program fuel + depths (source :: allTopExpressions earlier)))
        (Machine.call code.functions fuel) other :=
    simulates_call fuel (Nat.add_le_add_left (depth_le_depths inside) _)
  have onward := (Assembly.widens_declareKind _ _ _).trans widens
  have follows := follows_performAll forms known onward fun other inside =>
    simulates other (List.mem_cons_of_mem _ inside)
  have accepts : ∀ attempts text piece, Sink.unlimited.refuses attempts text piece = none :=
    fun _ _ _ => rfl
  have agreed := (follows _ _ (faithful_ofCode compiled accepts)).swap
  rw [reached] at agreed
  obtain ⟨_, session, _, _, faithful⟩ := agreed.exists_ok fun _ => id
  have step := (follows_evaluate (simulates source List.mem_cons_self) emitted session machine
    faithful).swap
  rw [evaluated] at step
  obtain ⟨datum, _, _, ⟨rfl, admitted⟩, faithfulLater⟩ := step.exists_ok fun _ => id
  have isGlobal := Analysis.isGlobal_iff.mpr ⟨source, defined⟩
  obtain ⟨last, ran, _⟩ := faithfulLater.defineGlobal isGlobal admitted widens
  exact ⟨last, ran⟩

/-- After every prefix of the forms, also after a form that fails, each global of the session is
declared exactly once, with a kind that admits its value. So every definition that a compiled program
reaches succeeds. -/
theorem globals_have_declared_kinds (compiled : compile program = .ok code) :
    (∀ sink fuel done, done <+: program.forms →
      (Session.run fuel ⟨done⟩ (.fresh sink)).Ends fun session =>
        ∀ name datum, session.environment.globals.find? name = some datum →
          (code.globals.map Prod.fst).count name = 1 ∧
            ∃ kind, (name, kind) ∈ code.globals ∧ kind.admits (Value.ofDatum datum) = true) ∧
    (∀ fuel before name expression after,
      code.main = before ++ .define name expression :: after →
      ∀ machine, Run.each (Machine.execute code.functions fuel) before (.ofCode code) =
        .ok () machine →
      ∀ value later, Machine.evaluate (Machine.call code.functions fuel) .empty expression machine =
        .ok value later →
      ∃ last, Machine.defineGlobal name value later = .ok () last) := by
  constructor
  · intro sink fuel done started
    obtain ⟨emits, _⟩ := emits_of_compile compiled
    have unique := emits.declaresKinds.nodup List.nodup_nil
    obtain ⟨rest, forms⟩ := started
    rw [← forms] at emits
    obtain ⟨first, middle, emitted, widens⟩ := emits.of_append
    rw [Session.run_eq_performAll, ← Session.evaluateIn_headFirst]
    apply (typed_performAll emitted (typed_fresh sink)).imp
    intro session typed name datum bound
    obtain ⟨kind, declared, admitted⟩ := typed.admits.widen widens name datum bound
    obtain ⟨before, after, parts, _⟩ := List.lookup_eq_some_iff.mp declared
    have member : (name, kind) ∈ code.globals := by simp [parts]
    have named : name ∈ code.globals.map Prod.fst := List.mem_map_of_mem member
    exact ⟨List.count_eq_one_of_mem unique named, kind, member, admitted⟩
  · intro fuel before name expression after parts machine reached value later evaluated
    exact defineGlobal_of_reached compiled parts reached evaluated

/-- The second global copies the kind of the first one, which takes a value of another kind later.
The last definition fails. -/
def kindsProgram : Program :=
  ⟨[.definition (.value "a" (.constant (.integer 1))),
    .definition (.value "b" (.identifier "a")),
    .begin [.definition (.value "a" (.constant (.string "x"))),
      .definition (.value "b" (.application "quotient"
        [.constant (.integer 1), .constant (.integer 0)]))]]⟩

/-- The global that changes its kind is declared once, and admits its last value although the run
fails. -/
theorem kindsProgram_globals_have_kinds :
    ∃ code session, compile kindsProgram = .ok code ∧
      Session.run 9 kindsProgram (.fresh .unlimited) = .error .divisionByZero session ∧
      session.environment.globals.find? "a" = some (.string "x") ∧
      (code.globals.map Prod.fst).count "a" = 1 ∧
      ∃ kind, ("a", kind) ∈ code.globals ∧ kind.admits (.string "x") = true := by
  obtain ⟨code, compiled⟩ : ∃ code, compile kindsProgram = .ok code := ⟨_, rfl⟩
  obtain ⟨session, failed, bound⟩ : ∃ session, Session.run 9 kindsProgram (.fresh .unlimited) =
      .error .divisionByZero session ∧
        session.environment.globals.find? "a" = some (.string "x") := ⟨_, rfl, rfl⟩
  have sound := (globals_have_declared_kinds compiled).1 .unlimited 9 kindsProgram.forms
    (List.prefix_refl _)
  have ended : Session.run 9 ⟨kindsProgram.forms⟩ (.fresh .unlimited) =
    .error .divisionByZero session := failed
  rw [ended] at sound
  exact ⟨code, session, compiled, failed, bound, sound "a" (.string "x") bound⟩

end Programs

end SmallScheme.Compiler
