/-
This file evaluates expressions and runs programs in a session.
The fuel bounds how deeply evaluations nest.
-/

import SmallScheme.Program.Lower
import SmallScheme.Session.Environment
import SmallScheme.Session.Library

namespace SmallScheme

structure Session where
  environment : Environment
  sink : Sink

namespace Session

/-- A session that knows the predefined procedures. -/
def fresh (sink : Sink) : Session :=
  ⟨.predefined, sink⟩

def onEnvironment (change : Environment → Environment) (session : Session) : Session :=
  { session with environment := change session.environment }

def writing {A : Type} (run : Run Sink A) : Run Session A :=
  run.within sink fun session sink => { session with sink := sink }

def findProcedure (name : String) (session : Session) : Except RunError Callable :=
  match session.environment.procedure? name with
  | some callable => .ok callable
  | none => .error (.undefinedProcedure name)

/-- Only the selected branch is evaluated. -/
def conditional (recur : Expression → Run Session Datum) (operands : List Expression) :
    Run Session Datum :=
  match operands with
  | [condition, consequent, alternative] => do
      if (← recur condition).isTrue then recur consequent else recur alternative
  | _ => Run.fail (.arityMismatch operands.length 3)

/-- A call binds its internal variables one after the other. -/
def bindValue (recur : Expression → Run Session Datum) (definition : String × Expression) :
    Run Session Unit := do
  let value ← recur definition.2
  Run.update (onEnvironment (·.defineVariable definition.1 value))

def callBody (recur : Expression → Run Session Datum) (procedure : Procedure) :
    Run Session Datum := do
  Run.each (bindValue recur) procedure.values
  Run.each (fun effect => do let _ ← recur effect) procedure.effects
  recur procedure.body

/-- The frame of a call lasts until the call ends, also with an error. -/
def callCode (recur : Expression → Run Session Datum) (procedure : Procedure)
    (arguments : List Datum) : Run Session Datum :=
  if procedure.params.length = arguments.length then
    Run.between
      (onEnvironment (·.pushFrame (.ofPairs (procedure.params.zip arguments))))
      (onEnvironment (·.popFrame))
      (callBody recur procedure)
  else Run.fail (.parameterMismatch procedure.params.length arguments.length)

/-- The procedure is looked up before the operands are evaluated. -/
def applyProcedure (recur : Expression → Run Session Datum) (procedure : String)
    (operands : List Expression) : Run Session Datum := do
  let callable ← Run.read (findProcedure procedure)
  let arguments ← Run.all recur operands
  match callable with
  | .builtin builtin => writing (apply builtin arguments)
  | .code code => callCode recur code arguments

/-- One level of evaluation, which leaves the nested expressions to `recur`. -/
def evaluateWith (recur : Expression → Run Session Datum) : Expression → Run Session Datum
  | .constant literal => Run.ofExcept (Datum.ofLiteral literal)
  | .quotation quoted => Run.ofExcept (Datum.ofQuoted quoted)
  | .identifier name => Run.read (·.environment.lookup name)
  | .application procedure operands =>
      if procedure = "if" then conditional recur operands
      else applyProcedure recur procedure operands

def evaluate : Nat → Expression → Run Session Datum
  | 0, _ => Run.outOfFuel
  | fuel + 1, expression => evaluateWith (evaluate fuel) expression

def define (fuel : Nat) : Definition → Run Session Unit
  | .value name expression => bindValue (evaluate fuel) (name, expression)
  | .procedure procedure => Run.update (onEnvironment (·.register procedure))

/-- A session with the values of the top-level expressions run so far. -/
structure Transcript where
  session : Session
  values : List Datum

namespace Transcript

def inSession {A : Type} (run : Run Session A) : Run Transcript A :=
  run.within session fun transcript session => { transcript with session := session }

def record (value : Datum) : Run Transcript Unit :=
  Run.update fun transcript => { transcript with values := transcript.values ++ [value] }

end Transcript

mutual

def execute (fuel : Nat) : Form → Run Transcript Unit
  | .expression expression => do
      let value ← Transcript.inSession (evaluate fuel expression)
      Transcript.record value
  | .definition definition => Transcript.inSession (define fuel definition)
  | .begin forms => executeAll fuel forms

/-- The first error cancels the forms after it. -/
def executeAll (fuel : Nat) : List Form → Run Transcript Unit
  | [] => return
  | form :: rest => do
      execute fuel form
      executeAll fuel rest

end

/-- The values of the top-level expressions. Definitions and output from before an error stay. -/
def run (fuel : Nat) (program : Program) : Run Session (List Datum) :=
  fun session =>
    match executeAll fuel program.forms ⟨session, []⟩ with
    | .ok _ transcript => .ok transcript.values transcript.session
    | .error error transcript => .error error transcript.session
    | .outOfFuel => .outOfFuel

/-- A source with a syntax error does not run at all. -/
def runSource (fuel : Nat) (source : String) (session : Session) :
    Except SyntaxError (Outcome Session (List Datum)) := do
  return run fuel (← Program.ofSource source) session

end Session

end SmallScheme
