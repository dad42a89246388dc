/-
This file evaluates with notes of the names that are read and of the procedures that are applied.
Without the notes it is the evaluation of a session.
-/

import SmallScheme.Proofs.Compiler.Scope
import SmallScheme.Proofs.Session.Forms

namespace SmallScheme

/-- A call in progress, with the number of internal variables that it has defined so far. -/
structure Activation where
  procedure : Procedure
  defined : Nat

/-- The local names that the code of the call sees at this point. -/
def Activation.scope (call : Activation) : Scope :=
  call.procedure.scopeAfter call.defined

/-- The innermost of the calls in progress comes first, as the innermost frame does. -/
inductive Event where
  | reads (name : String) (calls : List Activation) (environment : Environment)
  | applies (procedure : String) (operands : List Expression) (session : Session)

/-- A computation with notes, which stay when it fails or runs out of fuel. -/
def Traced (A : Type) : Type :=
  Session → Outcome Session A × List Event

namespace Traced

variable {A B : Type}

/-- A value without a note. -/
protected def pure (value : A) : Traced A :=
  fun session => (.ok value session, [])

/-- The notes of the first part come before those of the second. -/
protected def bind (first : Traced A) (next : A → Traced B) : Traced B :=
  fun session =>
    match first session with
    | (.ok value after, events) =>
        ((next value after).1, events ++ (next value after).2)
    | (.error error after, events) => (.error error after, events)
    | (.outOfFuel, events) => (.outOfFuel, events)

/-- Computations with notes follow one another. -/
instance : Monad Traced where
  pure := Traced.pure
  bind := Traced.bind

/-- A computation that notes nothing. -/
def silent (run : Run Session A) : Traced A :=
  fun session => (run session, [])

/-- A note of the session as it stands. -/
def note (event : Session → Event) : Traced Unit :=
  fun session => (.ok () session, [event session])

/-- A computation with notes between two changes of the session. -/
def between (enter leave : Session → Session) (traced : Traced A) : Traced A :=
  fun session =>
    (Run.between enter leave (fun inside => (traced inside).1) session, (traced (enter session)).2)

/-- The values of all the items, with their notes in turn. -/
def all (traced : A → Traced B) : List A → Traced (List B)
  | [] => return []
  | item :: rest => do
      let value ← traced item
      let values ← all traced rest
      return value :: values

/-- All the items in turn, for their notes and effects. -/
def each (traced : A → Traced Unit) : List A → Traced Unit
  | [] => return
  | item :: rest => do
      traced item
      each traced rest

/-- The computation without its notes. -/
def run (traced : Traced A) : Run Session A :=
  fun session => (traced session).1

theorem run_pure (value : A) : (pure value : Traced A).run = pure value := rfl

theorem run_silent (computation : Run Session A) : (silent computation).run = computation := rfl

theorem run_note (event : Session → Event) : (note event).run = pure () := rfl

/-- A sequence without notes is the sequence of its parts without notes. -/
theorem run_bind (first : Traced A) (next : A → Traced B) :
    (first >>= next).run = first.run >>= fun value => (next value).run := by
  funext session
  change (Traced.bind first next session).1 = _
  rw [Run.bind_apply, Traced.bind, run]
  rcases first session with ⟨outcome, events⟩
  cases outcome <;> rfl

theorem run_between (enter leave : Session → Session) (traced : Traced A) :
    (between enter leave traced).run = Run.between enter leave traced.run := rfl

/-- Collected values without notes are those of the computations without notes. -/
theorem run_all {traced : A → Traced B} {computation : A → Run Session B} {items : List A}
    (same : ∀ item ∈ items, (traced item).run = computation item) :
    (all traced items).run = Run.all computation items := by
  induction items with
  | nil => rfl
  | cons item rest ih =>
      have rests := ih fun other member => same other (List.mem_cons_of_mem _ member)
      simp only [all, Run.all, run_bind, run_pure, rests, same item List.mem_cons_self]

/-- Items run through without notes as the computations do. -/
theorem run_each {traced : A → Traced Unit} {computation : A → Run Session Unit} {items : List A}
    (same : ∀ item ∈ items, (traced item).run = computation item) :
    (each traced items).run = Run.each computation items := by
  induction items with
  | nil => rfl
  | cons item rest ih =>
      have rests := ih fun other member => same other (List.mem_cons_of_mem _ member)
      simp only [each, Run.each, run_bind, rests, same item List.mem_cons_self]

end Traced

namespace Session

/-- A conditional with the notes of the parts that it evaluates. -/
def tracedConditional (recur : Expression → Traced Datum) (operands : List Expression) :
    Traced Datum :=
  match operands with
  | [condition, consequent, alternative] => do
      if (← recur condition).isTrue then recur consequent else recur alternative
  | _ => .silent (Run.fail (.arityMismatch operands.length 3))

/-- An internal variable with the notes of its value. -/
def tracedBind (recur : Expression → Traced Datum) (definition : String × Expression) :
    Traced Unit := do
  let value ← recur definition.2
  .silent (Run.update (onEnvironment (·.defineVariable definition.1 value)))

/-- Each internal variable is one more that the call has defined. -/
def tracedValues (recur : Nat → Expression → Traced Datum) :
    Nat → List (String × Expression) → Traced Unit
  | _, [] => return
  | defined, definition :: rest => do
      tracedBind (recur defined) definition
      tracedValues recur (defined + 1) rest

/-- The body of a call, which sees more of its variables after each definition. -/
def tracedBody (recur : Nat → Expression → Traced Datum) (procedure : Procedure) :
    Traced Datum := do
  tracedValues recur 0 procedure.values
  Traced.each (fun effect => do let _ ← recur procedure.values.length effect) procedure.effects
  recur procedure.values.length procedure.body

/-- A call with the notes of its body. -/
def tracedCall (recur : List Activation → Expression → Traced Datum) (calls : List Activation)
    (procedure : Procedure) (arguments : List Datum) : Traced Datum :=
  if procedure.params.length = arguments.length then
    Traced.between
      (onEnvironment (·.pushFrame (.ofPairs (procedure.params.zip arguments))))
      (onEnvironment (·.popFrame))
      (tracedBody (fun defined => recur (⟨procedure, defined⟩ :: calls)) procedure)
  else .silent (Run.fail (.parameterMismatch procedure.params.length arguments.length))

/-- A call of what was found. Only procedures of the program take notes. -/
def tracedInvoke (recur : List Activation → Expression → Traced Datum) (calls : List Activation)
    (arguments : List Datum) : Callable → Traced Datum
  | .builtin builtin => .silent (writing (apply builtin arguments))
  | .code procedure => tracedCall recur calls procedure arguments

/-- An application, noted before its procedure is looked up. -/
def tracedApply (recur : List Activation → Expression → Traced Datum) (calls : List Activation)
    (procedure : String) (operands : List Expression) : Traced Datum := do
  Traced.note (.applies procedure operands)
  let callable ← Traced.silent (Run.read (findProcedure procedure))
  let arguments ← Traced.all (recur calls) operands
  tracedInvoke recur calls arguments callable

/-- One level of evaluation, in which every variable is noted before it is read. -/
def tracedWith (recur : List Activation → Expression → Traced Datum) (calls : List Activation) :
    Expression → Traced Datum
  | .constant literal => .silent (Run.ofExcept (Datum.ofLiteral literal))
  | .quotation quoted => .silent (Run.ofExcept (Datum.ofQuoted quoted))
  | .identifier name => do
      Traced.note fun session => .reads name calls session.environment
      .silent (Run.read (·.environment.lookup name))
  | .application procedure operands =>
      if procedure = "if" then tracedConditional (recur calls) operands
      else tracedApply recur calls procedure operands

/-- Evaluation with notes, inside the given calls. -/
def traced : Nat → List Activation → Expression → Traced Datum
  | 0, _, _ => .silent Run.outOfFuel
  | fuel + 1, calls, expression => tracedWith (traced fuel) calls expression

/-- A top-level definition with the notes of its value. -/
def tracedDefinition (fuel : Nat) : Definition → Traced Unit
  | .value name expression => tracedBind (traced fuel []) (name, expression)
  | .procedure procedure => .silent (Run.update (onEnvironment (·.register procedure)))

mutual

/-- A form with the notes of what it evaluates. -/
def tracedForm (fuel : Nat) : Form → Traced (List Datum)
  | .expression expression => do
      let value ← traced fuel [] expression
      return [value]
  | .definition definition => do
      tracedDefinition fuel definition
      return []
  | .begin forms => tracedForms fuel forms

/-- The forms of a program with their notes in turn. -/
def tracedForms (fuel : Nat) : List Form → Traced (List Datum)
  | [] => return []
  | form :: rest => do
      let values ← tracedForm fuel form
      let others ← tracedForms fuel rest
      return values ++ others

end

/-- A run of a program with notes. -/
def tracedRun (fuel : Nat) (program : Program) : Traced (List Datum) :=
  tracedForms fuel program.forms

section Erasure

variable {recur : List Activation → Expression → Traced Datum}
  {plain : Expression → Run Session Datum}

theorem run_tracedConditional {evaluator : Expression → Traced Datum}
    (same : ∀ expression, (evaluator expression).run = plain expression)
    (operands : List Expression) :
    (tracedConditional evaluator operands).run = conditional plain operands := by
  match operands with
  | [condition, consequent, alternative] =>
      change (evaluator condition >>= fun value =>
        if value.isTrue then evaluator consequent else evaluator alternative).run =
          plain condition >>= fun value =>
            if value.isTrue then plain consequent else plain alternative
      rw [Traced.run_bind, same]
      congr 1
      funext value
      cases value.isTrue
      · exact same alternative
      · exact same consequent
  | [] | [_] | [_, _] | _ :: _ :: _ :: _ :: _ => rfl

theorem run_tracedBind {evaluator : Expression → Traced Datum}
    (same : ∀ expression, (evaluator expression).run = plain expression)
    (definition : String × Expression) :
    (tracedBind evaluator definition).run = bindValue plain definition := by
  simp only [tracedBind, bindValue, Traced.run_bind, Traced.run_silent, same]

theorem run_tracedValues {inner : Nat → Expression → Traced Datum}
    (same : ∀ defined expression, (inner defined expression).run = plain expression)
    (defined : Nat) (values : List (String × Expression)) :
    (tracedValues inner defined values).run = Run.each (bindValue plain) values := by
  induction values generalizing defined with
  | nil => rfl
  | cons definition rest ih =>
      simp only [tracedValues, Run.each, Traced.run_bind, run_tracedBind (same defined), ih]

theorem run_tracedBody {inner : Nat → Expression → Traced Datum}
    (same : ∀ defined expression, (inner defined expression).run = plain expression)
    (procedure : Procedure) : (tracedBody inner procedure).run = callBody plain procedure := by
  have effects : (Traced.each (fun effect => do let _ ← inner procedure.values.length effect)
        procedure.effects).run =
      Run.each (fun effect => do let _ ← plain effect) procedure.effects := by
    apply Traced.run_each
    intro effect _
    rw [Traced.run_bind, same]
    rfl
  simp only [tracedBody, callBody, Traced.run_bind, run_tracedValues same, effects, same]

theorem run_tracedCall (same : ∀ calls expression, (recur calls expression).run = plain expression)
    (calls : List Activation) (procedure : Procedure) (arguments : List Datum) :
    (tracedCall recur calls procedure arguments).run = callCode plain procedure arguments := by
  unfold tracedCall callCode
  split
  · rw [Traced.run_between, run_tracedBody fun _ => same _]
  · rfl

theorem run_tracedApply (same : ∀ calls expression, (recur calls expression).run = plain expression)
    (calls : List Activation) (procedure : String) (operands : List Expression) :
    (tracedApply recur calls procedure operands).run = applyProcedure plain procedure operands := by
  have arguments : (Traced.all (recur calls) operands).run = Run.all plain operands :=
    Traced.run_all fun operand _ => same calls operand
  rw [tracedApply, applyProcedure, Traced.run_bind, Traced.run_note]
  change Traced.run _ = _
  rw [Traced.run_bind, Traced.run_silent]
  congr 1
  funext callable
  rw [Traced.run_bind, arguments]
  congr 1
  funext values
  cases callable with
  | builtin builtin => rfl
  | code code => exact run_tracedCall same calls code values

theorem run_tracedWith (same : ∀ calls expression, (recur calls expression).run = plain expression)
    (calls : List Activation) (expression : Expression) :
    (tracedWith recur calls expression).run = evaluateWith plain expression := by
  cases expression with
  | constant literal => rfl
  | quotation quoted => rfl
  | identifier name => rfl
  | application procedure operands =>
      rw [tracedWith, evaluateWith]
      split
      · exact run_tracedConditional (same calls) operands
      · exact run_tracedApply same calls procedure operands

/-- The notes do not change what is evaluated. -/
theorem run_traced (fuel : Nat) (calls : List Activation) (expression : Expression) :
    (traced fuel calls expression).run = evaluate fuel expression := by
  induction fuel generalizing calls expression with
  | zero => rfl
  | succ fuel ih => exact run_tracedWith ih calls expression

theorem run_tracedDefinition (fuel : Nat) (definition : Definition) :
    (tracedDefinition fuel definition).run = performDefinition (evaluate fuel) definition := by
  cases definition with
  | value name expression => exact run_tracedBind (run_traced fuel []) (name, expression)
  | procedure procedure => rfl

mutual

theorem run_tracedForm (fuel : Nat) (form : Form) :
    (tracedForm fuel form).run = perform (evaluate fuel) form := by
  cases form with
  | expression expression =>
      rw [tracedForm, perform, Traced.run_bind, run_traced]
      rfl
  | definition definition =>
      rw [tracedForm, perform, Traced.run_bind, run_tracedDefinition]
      rfl
  | begin forms => exact run_tracedForms fuel forms

theorem run_tracedForms (fuel : Nat) (forms : List Form) :
    (tracedForms fuel forms).run = performAll (evaluate fuel) forms := by
  cases forms with
  | nil => rfl
  | cons form rest =>
      simp only [tracedForms, performAll, Traced.run_bind, run_tracedForm fuel form,
        run_tracedForms fuel rest, Traced.run_pure]

end

/-- A run with notes ends as the run of the program. -/
theorem run_tracedRun (fuel : Nat) (program : Program) :
    (tracedRun fuel program).run = run fuel program := by
  rw [run_eq_performAll, tracedRun, run_tracedForms]

end Erasure

end Session

end SmallScheme
