/-
This file gives the bindings of a session. Scoping is dynamic: a callee sees the parameters of its
callers.
-/

import SmallScheme.Builtin
import SmallScheme.Data.Datum
import SmallScheme.Table

namespace SmallScheme

inductive Callable where
  | builtin (builtin : Builtin)
  | code (procedure : Procedure)

/-- The innermost frame comes first. -/
structure Environment where
  globals : Table Datum
  procedures : Table Callable
  frames : List (Table Datum)

namespace Environment

def empty : Environment :=
  ⟨.empty, .empty, []⟩

def defineProcedure (environment : Environment) (name : String) (callable : Callable) :
    Environment :=
  { environment with procedures := environment.procedures.insert name callable }

def predefined : Environment :=
  Builtin.all.foldl
    (fun environment builtin => environment.defineProcedure builtin.name (.builtin builtin)) empty

/-- The innermost frame takes the binding, and outside of every call the globals do. -/
def defineVariable (environment : Environment) (name : String) (value : Datum) : Environment :=
  match environment.frames with
  | [] => { environment with globals := environment.globals.insert name value }
  | frame :: outer => { environment with frames := frame.insert name value :: outer }

/-- The innermost frame that binds the name wins, and the globals come last. -/
def binding? (environment : Environment) (name : String) : Option Datum :=
  match environment.frames.findSome? (·.find? name) with
  | some value => some value
  | none => environment.globals.find? name

def lookup (environment : Environment) (name : String) : Except RunError Datum :=
  match environment.binding? name with
  | some value => .ok value
  | none => .error (.undefinedVariable name)

def procedure? (environment : Environment) (name : String) : Option Callable :=
  environment.procedures.find? name

def pushFrame (environment : Environment) (frame : Table Datum) : Environment :=
  { environment with frames := frame :: environment.frames }

def popFrame (environment : Environment) : Environment :=
  { environment with frames := environment.frames.tail }

/-- The number of active calls. -/
def depth (environment : Environment) : Nat :=
  environment.frames.length

end Environment

mutual

/-- A definition also registers the procedures defined inside it. -/
def Environment.register (environment : Environment) : Procedure → Environment
  | ⟨name, params, definitions, effects, body⟩ =>
      (environment.defineProcedure name (.code ⟨name, params, definitions, effects, body⟩)).registerAll
        definitions

def Environment.registerDefinition (environment : Environment) : Definition → Environment
  | .value _ _ => environment
  | .procedure procedure => environment.register procedure

def Environment.registerAll (environment : Environment) : List Definition → Environment
  | [] => environment
  | definition :: rest => (environment.registerDefinition definition).registerAll rest

end

end SmallScheme
