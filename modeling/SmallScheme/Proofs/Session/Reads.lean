/-
This file shows that the scopes of the compiler bind what the frames of a session bind, and that a
name which is read from the frame of a caller is one that the caller publishes.
-/

import Mathlib.Data.List.Forall2
import SmallScheme.Proofs.Session.Register
import SmallScheme.Proofs.Session.Trace

namespace SmallScheme

namespace Traced

variable {A B : Type} {good : Event → Prop} {before middle : Session → Prop}

/-- From a state that satisfies the first condition, every note is good, and a value comes with a
state that satisfies the second condition. -/
def Notes (good : Event → Prop) (before : Session → Prop) (after : A → Session → Prop)
    (traced : Traced A) : Prop :=
  ∀ session, before session → (∀ event ∈ (traced session).2, good event) ∧
    ∀ value later, (traced session).1 = .ok value later → after value later

/-- A value notes nothing. -/
theorem notes_pure {after : A → Session → Prop} {value : A}
    (kept : ∀ session, before session → after value session) :
    Notes good before after (pure value) := by
  intro session holds
  refine ⟨fun event member => absurd member List.not_mem_nil, ?_⟩
  rintro _ _ ⟨rfl, rfl⟩
  exact kept session holds

/-- A silent run takes no notes, so only the states after it count. -/
theorem notes_silent {after : A → Session → Prop} {run : Run Session A}
    (kept : ∀ session value later, before session → run session = .ok value later →
      after value later) : Notes good before after (silent run) := by
  intro session holds
  refine ⟨fun event member => absurd member List.not_mem_nil, ?_⟩
  exact fun value later given => kept session value later holds given

/-- A good note keeps the state. -/
theorem notes_note {event : Session → Event} (fine : ∀ session, before session → good (event session)) :
    Notes good before (fun _ => before) (note event) := by
  intro session holds
  refine ⟨fun other member => ?_, ?_⟩
  · rw [List.mem_singleton.mp member]
    exact fine session holds
  · rintro _ _ ⟨rfl, rfl⟩
    exact holds

/-- A sequence takes good notes if both parts do, each from the states that it meets. -/
theorem notes_bind {after : B → Session → Prop} {between : A → Session → Prop} {first : Traced A}
    {next : A → Traced B} (heads : Notes good before between first)
    (rests : ∀ value, Notes good (between value) after (next value)) :
    Notes good before after (first >>= next) := by
  intro session holds
  obtain ⟨noted, given⟩ := heads session holds
  change (∀ event ∈ (Traced.bind first next session).2, _) ∧
    ∀ value later, (Traced.bind first next session).1 = _ → _
  unfold Traced.bind
  rcases ended : first session with ⟨outcome, events⟩
  rw [ended] at noted given
  cases outcome with
  | ok value later =>
      obtain ⟨others, last⟩ := rests value later (given value later rfl)
      exact ⟨List.forall_mem_append.mpr ⟨noted, others⟩, last⟩
  | error error later => exact ⟨noted, nofun⟩
  | outOfFuel => exact ⟨noted, nofun⟩

/-- A run between two changes takes good notes if it does after the first one. -/
theorem notes_between {after : A → Session → Prop} {inside : Session → Prop}
    {finished : A → Session → Prop} {enter leave : Session → Session} {traced : Traced A}
    (entered : ∀ session, before session → inside (enter session))
    (noted : Notes good inside finished traced)
    (left : ∀ value session, finished value session → after value (leave session)) :
    Notes good before after (between enter leave traced) := by
  intro session holds
  obtain ⟨fine, given⟩ := noted (enter session) (entered session holds)
  refine ⟨fine, ?_⟩
  intro value later ended
  change Run.between enter leave traced.run session = .ok value later at ended
  obtain ⟨last, result, rfl⟩ := Run.between_eq_ok ended
  exact left value last (given value last result)

/-- Values are collected with good notes if each of them is. -/
theorem notes_all {traced : A → Traced B} {items : List A}
    (each : ∀ item ∈ items, Notes good before (fun _ => before) (traced item)) :
    Notes good before (fun _ => before) (all traced items) := by
  induction items with
  | nil => exact notes_pure fun _ => id
  | cons item rest ih =>
      rw [List.forall_mem_cons] at each
      refine notes_bind each.1 fun value => ?_
      exact notes_bind (ih each.2) fun values => notes_pure fun _ => id

/-- Items are run through with good notes if each of them is. -/
theorem notes_each {traced : A → Traced Unit} {items : List A}
    (each : ∀ item ∈ items, Notes good before (fun _ => before) (traced item)) :
    Notes good before (fun _ => before) (Traced.each traced items) := by
  induction items with
  | nil => exact notes_pure fun _ => id
  | cons item rest ih =>
      rw [List.forall_mem_cons] at each
      exact notes_bind each.1 fun _ => ih each.2

end Traced

/-- The frame belongs to the call: it binds the names that the scope of the call binds. -/
structure Activation.Owns (program : Program) (call : Activation) (frame : Table Datum) :
    Prop where
  member : call.procedure ∈ program.procedures
  binds : ∀ name, (frame.find? name).isSome ↔ (call.scope.lookup name).isSome

/-- The names that the expression reads freely in the innermost call are free in its procedure. -/
def OwnCode (calls : List Activation) (expression : Expression) : Prop :=
  ∀ call ∈ calls.head?, ∀ name ∈ expression.free call.scope.names, name ∈ call.procedure.free

/-- A name is read where the analysis of the program expects it: every frame binds what the scope of
its call binds, and a name from the frame of a caller is one that the caller publishes. -/
structure ExpectedRead (program : Program) (name : String) (calls : List Activation)
    (environment : Environment) : Prop where
  owns : List.Forall₂ (Activation.Owns program) calls environment.frames
  published : ∀ call callers frame frames, calls = call :: callers →
    environment.frames = frame :: frames → frame.find? name = none →
      ∀ owner owned, (owner, owned) ∈ callers.zip frames → (owned.find? name).isSome →
        (Analysis.ofProgram program).isDynamic name ∧
          (Analysis.ofProgram program).publishes owner.procedure

/-- A reading stands where the analysis expects it, and nothing is asked of applications. -/
def Event.Expected (program : Program) : Event → Prop
  | .reads name calls environment => ExpectedRead program name calls environment
  | .applies _ _ _ => True

namespace Session

variable {program : Program} {calls : List Activation}

/-- The calls in progress own the frames of the session. -/
structure Standing (program : Program) (calls : List Activation) (session : Session) : Prop where
  registered : session.environment.Registered program
  owns : List.Forall₂ (Activation.Owns program) calls session.environment.frames

/-- Names are read where the analysis expects them, from every place of the program's own code. -/
def ReadsExpected (program : Program) (recur : List Activation → Expression → Traced Datum) :
    Prop :=
  ∀ calls expression, OwnCode calls expression →
    Traced.Notes (Event.Expected program) (Standing program calls)
      (fun _ => Standing program calls) (recur calls expression)

/-- A procedure's own code reads names where the analysis expects them. -/
theorem Standing.expected {session : Session} (standing : Standing program calls session)
    {name : String} (own : OwnCode calls (.identifier name)) :
    Event.Expected program (.reads name calls session.environment) := by
  refine ⟨standing.owns, ?_⟩
  rintro call callers frame frames rfl inner unbound owner owned pair bound
  have owns := standing.owns
  rw [inner, List.forall₂_cons] at owns
  have absent : name ∉ call.scope.names := by
    rw [← Scope.lookup_isSome_iff, ← owns.1.binds, unbound]
    simp
  have reads : name ∈ call.procedure.free := by
    apply own call (by simp) name
    rw [Expression.free, if_neg (by simpa using absent)]
    exact List.mem_singleton_self name
  have callerOwns : owner.Owns program owned :=
    List.forall₂_iff_zip.mp owns.2 |>.2 pair
  have binds : name ∈ owner.procedure.locals := by
    apply Procedure.names_scopeAfter_subset
    rw [← Scope.lookup_isSome_iff]
    exact (callerOwns.binds name).mp bound
  have dynamic := Analysis.isDynamic_of_free_of_local owns.1.member callerOwns.member reads binds
  exact ⟨dynamic, Analysis.publishes_of_local dynamic binds⟩

/-- A conditional reads names where the analysis expects them. -/
theorem notes_conditional {recur : List Activation → Expression → Traced Datum}
    (expected : ReadsExpected program recur) {operands : List Expression}
    (own : ∀ operand ∈ operands, OwnCode calls operand) :
    Traced.Notes (Event.Expected program) (Standing program calls)
      (fun _ => Standing program calls) (tracedConditional (recur calls) operands) := by
  unfold tracedConditional
  split
  · rename_i condition consequent alternative
    simp only [List.forall_mem_cons] at own
    refine Traced.notes_bind (expected calls condition own.1) fun value => ?_
    cases value.isTrue
    · exact expected calls alternative own.2.2.1
    · exact expected calls consequent own.2.1
  · apply Traced.notes_silent
    intro session value later _ ended
    cases ended

/-- Only the sink may change. -/
theorem notes_steady {A : Type} {run : Run Session A}
    (steady : ∀ session value later, run session = .ok value later →
      later.environment = session.environment) :
    Traced.Notes (Event.Expected program) (Standing program calls)
      (fun _ => Standing program calls) (.silent run) := by
  apply Traced.notes_silent
  intro session value later standing ended
  have same := steady session value later ended
  exact ⟨same ▸ standing.registered, same ▸ standing.owns⟩

/-- A write reads no name. -/
theorem notes_writing {A : Type} (run : Run Sink A) :
    Traced.Notes (Event.Expected program) (Standing program calls)
      (fun _ => Standing program calls) (.silent (writing run)) := by
  apply notes_steady
  intro session value later ended
  unfold writing Run.within at ended
  cases outcome : run session.sink with
  | ok result sink =>
      rw [outcome] at ended
      obtain ⟨rfl, rfl⟩ := ended
      rfl
  | error error sink =>
      rw [outcome] at ended
      exact nomatch ended
  | outOfFuel =>
      rw [outcome] at ended
      exact nomatch ended

/-- A look at the session is no reading of the program. -/
theorem notes_read {A : Type} (part : Session → Except RunError A) :
    Traced.Notes (Event.Expected program) (Standing program calls)
      (fun _ => Standing program calls) (.silent (Run.read part)) := by
  apply notes_steady
  intro session value later ended
  unfold Run.read at ended
  cases found : part session with
  | ok result =>
      rw [found] at ended
      obtain ⟨rfl, rfl⟩ := ended
      rfl
  | error error =>
      rw [found] at ended
      exact nomatch ended

/-- A call starts with a frame for its parameters. -/
theorem Standing.enter {session : Session} (standing : Standing program calls session)
    {procedure : Procedure} (member : procedure ∈ program.procedures) {arguments : List Datum}
    (counted : procedure.params.length = arguments.length) :
    Standing program (⟨procedure, 0⟩ :: calls)
      (onEnvironment (·.pushFrame (.ofPairs (procedure.params.zip arguments))) session) := by
  refine ⟨standing.registered, List.Forall₂.cons ⟨member, ?_⟩ standing.owns⟩
  intro name
  rw [Activation.scope, Procedure.scopeAfter_zero, Scope.lookup_isSome_iff, Scope.names_parameters,
    Option.isSome_iff_ne_none, ne_eq, Table.find?_ofPairs_zip_eq_none counted, Decidable.not_not]

/-- Leaving a call drops its frame. -/
theorem Standing.leave {session : Session} {call : Activation}
    (standing : Standing program (call :: calls) session) :
    Standing program calls (onEnvironment (·.popFrame) session) := by
  obtain ⟨registered, owns⟩ := standing
  refine ⟨registered, ?_⟩
  change List.Forall₂ _ calls session.environment.frames.tail
  generalize session.environment.frames = frames at owns
  cases owns with
  | cons _ rest => exact rest

/-- An internal variable joins the frame as it joins the scope. -/
theorem Standing.defineVariable {session : Session} {procedure : Procedure} {defined : Nat}
    {name : String} {expression : Expression}
    (standing : Standing program (⟨procedure, defined⟩ :: calls) session)
    (inside : procedure.values[defined]? = some (name, expression)) (value : Datum) :
    Standing program (⟨procedure, defined + 1⟩ :: calls)
      (onEnvironment (·.defineVariable name value) session) := by
  obtain ⟨registered, owns⟩ := standing
  obtain ⟨⟨globals, procedures, frames⟩, sink⟩ := session
  change List.Forall₂ _ _ frames at owns
  cases owns with
  | cons head rest =>
      refine ⟨registered, List.Forall₂.cons ⟨head.member, ?_⟩ rest⟩
      intro other
      rw [Activation.scope, Procedure.scopeAfter_succ inside, Scope.lookup_bind,
        Table.find?_insert]
      have earlier := head.binds other
      rw [Activation.scope] at earlier
      split
      · simp
      · exact earlier

section Call

variable {recur : List Activation → Expression → Traced Datum} {procedure : Procedure}

/-- Internal variables read names where the analysis expects them, and join the scope one by one. -/
theorem notes_values (expected : ReadsExpected program recur) {defined : Nat}
    {values : List (String × Expression)} (rest : procedure.values.drop defined = values) :
    Traced.Notes (Event.Expected program) (Standing program (⟨procedure, defined⟩ :: calls))
      (fun _ => Standing program (⟨procedure, defined + values.length⟩ :: calls))
      (tracedValues (fun defined => recur (⟨procedure, defined⟩ :: calls)) defined values) := by
  induction values generalizing defined with
  | nil => exact Traced.notes_pure fun _ => id
  | cons definition others ih =>
      obtain ⟨name, expression⟩ := definition
      obtain ⟨inside, tail⟩ := Procedure.values_of_drop_eq_cons rest
      have own : OwnCode (⟨procedure, defined⟩ :: calls) expression := by
        rintro call ⟨rfl⟩ read reads
        exact Procedure.mem_free_of_value inside reads
      rw [tracedValues, List.length_cons, ← Nat.add_assoc, Nat.add_right_comm]
      refine Traced.notes_bind ?_ fun _ => ih tail
      refine Traced.notes_bind (expected _ expression own) fun value => ?_
      apply Traced.notes_silent
      rintro session _ _ standing ⟨rfl, rfl⟩
      exact standing.defineVariable inside value

/-- The body of a call reads names where the analysis expects them. -/
theorem notes_body (expected : ReadsExpected program recur) :
    Traced.Notes (Event.Expected program) (Standing program (⟨procedure, 0⟩ :: calls))
      (fun _ => Standing program (⟨procedure, procedure.values.length⟩ :: calls))
      (tracedBody (fun defined => recur (⟨procedure, defined⟩ :: calls)) procedure) := by
  have own (part : Expression) (member : part ∈ procedure.effects ++ [procedure.body]) :
      OwnCode (⟨procedure, procedure.values.length⟩ :: calls) part := by
    rintro call ⟨rfl⟩ read reads
    exact Procedure.mem_free_of_part member reads
  have values := @notes_values program calls recur procedure expected 0 _ List.drop_zero
  rw [Nat.zero_add] at values
  refine Traced.notes_bind values fun _ => ?_
  refine Traced.notes_bind (Traced.notes_each ?_) fun _ => ?_
  · intro effect member
    refine Traced.notes_bind (expected _ effect (own effect ?_)) fun _ => Traced.notes_pure fun _ => id
    exact List.mem_append_left _ member
  · exact expected _ procedure.body (own _ (by simp))

/-- A call of a procedure of the program reads names where the analysis expects them. -/
theorem notes_call (expected : ReadsExpected program recur)
    (member : procedure ∈ program.procedures) (arguments : List Datum) :
    Traced.Notes (Event.Expected program) (Standing program calls)
      (fun _ => Standing program calls) (tracedCall recur calls procedure arguments) := by
  unfold tracedCall
  split
  · rename_i counted
    refine Traced.notes_between ?_ (notes_body expected) ?_
    · exact fun session standing => standing.enter member counted
    · exact fun _ session standing => standing.leave
  · exact Traced.notes_silent nofun

/-- What a look-up finds stands in the program. -/
theorem notes_findProcedure {A : Type} {name : String} {after : A → Session → Prop}
    {next : Callable → Traced A}
    (rests : ∀ callable, (∀ procedure, callable = .code procedure →
      procedure ∈ program.procedures) →
        Traced.Notes (Event.Expected program) (Standing program calls) after (next callable)) :
    Traced.Notes (Event.Expected program) (Standing program calls) after
      (Traced.silent (Run.read (findProcedure name)) >>= next) := by
  have found : Traced.Notes (Event.Expected program) (Standing program calls)
      (fun callable session => Standing program calls session ∧
        ∀ procedure, callable = .code procedure → procedure ∈ program.procedures)
      (.silent (Run.read (findProcedure name))) := by
    apply Traced.notes_silent
    intro session callable later standing read
    rw [Run.read, findProcedure] at read
    cases known : session.environment.procedure? name with
    | none =>
        rw [known] at read
        cases read
    | some bound =>
        rw [known] at read
        obtain ⟨rfl, rfl⟩ := read
        refine ⟨standing, ?_⟩
        rintro procedure rfl
        exact standing.registered name procedure known
  refine Traced.notes_bind found fun callable => ?_
  exact fun session known => rests callable known.2 session known.1

/-- An application reads names where the analysis expects them. -/
theorem notes_apply (expected : ReadsExpected program recur) (name : String)
    {operands : List Expression} (own : ∀ operand ∈ operands, OwnCode calls operand) :
    Traced.Notes (Event.Expected program) (Standing program calls)
      (fun _ => Standing program calls) (tracedApply recur calls name operands) := by
  refine Traced.notes_bind (Traced.notes_note fun _ _ => trivial) fun _ => ?_
  refine notes_findProcedure fun callable known => ?_
  refine Traced.notes_bind (Traced.notes_all ?_) fun arguments => ?_
  · exact fun operand member => expected calls operand (own operand member)
  cases callable with
  | builtin builtin => exact notes_writing _
  | code procedure => exact notes_call expected (known procedure rfl) arguments

/-- One level of evaluation reads names where the analysis expects them, if the levels below it do. -/
theorem notes_with (expected : ReadsExpected program recur) :
    ReadsExpected program (tracedWith recur) := by
  intro calls expression own
  cases expression with
  | constant literal => exact notes_read fun _ => Datum.ofLiteral literal
  | quotation quoted => exact notes_read fun _ => Datum.ofQuoted quoted
  | identifier name =>
      refine Traced.notes_bind (Traced.notes_note fun session standing => ?_) fun _ => ?_
      · exact standing.expected own
      · exact notes_read _
  | application procedure operands =>
      have owned (operand : Expression) (member : operand ∈ operands) : OwnCode calls operand :=
        fun call innermost name reads =>
          own call innermost name (Expression.mem_free_application member reads)
      rw [tracedWith]
      split
      · exact notes_conditional expected owned
      · exact notes_apply expected procedure owned

end Call

/-- Evaluation reads names where the analysis expects them. -/
theorem notes_traced (program : Program) (fuel : Nat) : ReadsExpected program (traced fuel) := by
  induction fuel with
  | zero => exact fun _ _ _ => Traced.notes_silent nofun
  | succ fuel ih => exact notes_with ih

/-- Outside of every call a variable is a global. -/
theorem Standing.defineGlobal {session : Session} (standing : Standing program [] session)
    (name : String) (value : Datum) :
    Standing program [] (onEnvironment (·.defineVariable name value) session) := by
  obtain ⟨registered, owns⟩ := standing
  obtain ⟨⟨globals, procedures, frames⟩, sink⟩ := session
  change List.Forall₂ _ _ frames at owns
  cases owns
  exact ⟨registered, .nil⟩

/-- A top-level definition reads names where the analysis expects them. -/
theorem notes_definition (fuel : Nat) {definition : Definition}
    (members : ∀ inner ∈ definition.nested, inner ∈ program.procedures) :
    Traced.Notes (Event.Expected program) (Standing program []) (fun _ => Standing program [])
      (tracedDefinition fuel definition) := by
  cases definition with
  | value name expression =>
      refine Traced.notes_bind (notes_traced program fuel [] expression nofun) fun value => ?_
      apply Traced.notes_silent
      rintro session _ _ standing ⟨rfl, rfl⟩
      exact standing.defineGlobal name value
  | procedure procedure =>
      apply Traced.notes_silent
      rintro session _ _ standing ⟨rfl, rfl⟩
      rw [Definition.nested] at members
      have registers := Environment.register_eq_defineAll session.environment procedure
      refine ⟨?_, ?_⟩
      · change (session.environment.register procedure).Registered program
        rw [registers]
        exact standing.registered.defineAll members
      · change List.Forall₂ _ _ (session.environment.register procedure).frames
        rw [registers, Environment.frames_defineAll]
        exact standing.owns

mutual

/-- A form reads names where the analysis expects them. -/
theorem notes_form (fuel : Nat) {form : Form}
    (members : ∀ inner ∈ Definition.allNested form.definitions, inner ∈ program.procedures) :
    Traced.Notes (Event.Expected program) (Standing program []) (fun _ => Standing program [])
      (tracedForm fuel form) := by
  cases form with
  | expression expression =>
      exact Traced.notes_bind (notes_traced program fuel [] expression nofun) fun _ =>
        Traced.notes_pure fun _ => id
  | definition definition =>
      rw [Form.definitions, Definition.allNested, List.forall_mem_append] at members
      exact Traced.notes_bind (notes_definition fuel members.1) fun _ => Traced.notes_pure fun _ => id
  | begin forms =>
      rw [Form.definitions] at members
      exact notes_forms fuel members

/-- The forms of a program read names where the analysis expects them. -/
theorem notes_forms (fuel : Nat) {forms : List Form}
    (members : ∀ inner ∈ Definition.allNested (Form.allDefinitions forms),
      inner ∈ program.procedures) :
    Traced.Notes (Event.Expected program) (Standing program []) (fun _ => Standing program [])
      (tracedForms fuel forms) := by
  cases forms with
  | nil => exact Traced.notes_pure fun _ => id
  | cons form rest =>
      rw [Form.allDefinitions, Definition.allNested_append, List.forall_mem_append] at members
      refine Traced.notes_bind (notes_form fuel members.1) fun _ => ?_
      exact Traced.notes_bind (notes_forms fuel members.2) fun _ => Traced.notes_pure fun _ => id

end

/-- In every run of a program, a procedure's own code finds a name in the innermost frame exactly
if the scope built for that code binds it, and a name that it finds in the frame of a caller is
dynamic, so that the caller publishes it. -/
theorem reads_expected_of_run (fuel : Nat) (program : Program) (sink : Sink) :
    (tracedRun fuel program).run = run fuel program ∧
      (∀ name calls environment,
        .reads name calls environment ∈ (tracedRun fuel program (.fresh sink)).2 →
          ExpectedRead program name calls environment) ∧
      ∀ (call : Activation) analysis code steps scope after,
        Compiler.valueSteps analysis (.parameters call.procedure.params)
          (call.procedure.values.take call.defined) code = .ok ((steps, scope), after) →
            scope = call.scope := by
  refine ⟨run_tracedRun fuel program, ?_, ?_⟩
  · intro name calls environment noted
    have standing : Standing program [] (.fresh sink) :=
      ⟨Environment.registered_predefined program, .nil⟩
    have members : ∀ inner ∈ Definition.allNested (Form.allDefinitions program.forms),
        inner ∈ program.procedures := fun _ => id
    exact (notes_forms fuel members (.fresh sink) standing).1 _ noted
  · intro call analysis code steps scope after made
    exact Compiler.scope_of_valueSteps made

/-- A procedure that reads a parameter and an internal variable of its caller. -/
def totalPrice : Procedure :=
  ⟨"total", [], [], [], .application "+" [.identifier "price", .identifier "fee"]⟩

/-- The caller, which binds a parameter and an internal variable. -/
def payPrice : Procedure :=
  ⟨"pay", ["price"], [.value "fee" (.constant (.integer 2))], [], .application "total" []⟩

/-- Both procedures and a call of the outer one. -/
def payProgram : Program :=
  ⟨[.definition (.procedure totalPrice), .definition (.procedure payPrice),
    .expression (.application "pay" [.constant (.integer 40)])]⟩

/-- The environment in which the callee reads. -/
def payEnvironment : Environment :=
  (((Environment.predefined.register totalPrice).register payPrice).pushFrame
    (.ofPairs [("price", .integer 40), ("fee", .integer 2)])).pushFrame .empty

/-- The callee reads the internal variable of its caller, which therefore publishes it. -/
theorem payProgram_publishes_fee :
    .reads "fee" [⟨totalPrice, 0⟩, ⟨payPrice, 1⟩] payEnvironment ∈
        (tracedRun 9 payProgram (.fresh .unlimited)).2 ∧
      (Analysis.ofProgram payProgram).isDynamic "fee" ∧
      (Analysis.ofProgram payProgram).publishes payPrice := by
  have noted : (tracedRun 9 payProgram (.fresh .unlimited)).2[4]? =
      some (.reads "fee" [⟨totalPrice, 0⟩, ⟨payPrice, 1⟩] payEnvironment) := rfl
  have member := List.mem_of_getElem? noted
  have expected := (reads_expected_of_run 9 payProgram .unlimited).2.1 _ _ _ member
  exact ⟨member, expected.published _ _ _ _ rfl rfl rfl ⟨payPrice, 1⟩ _ List.mem_cons_self rfl⟩

end Session

end SmallScheme
