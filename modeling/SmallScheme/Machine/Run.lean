/-
This file runs compiled programs. The fuel bounds how deeply calls nest and how long a loop runs.
-/

import SmallScheme.Machine.Basic
import SmallScheme.Machine.Library

namespace SmallScheme.Machine

/-- Code that reads what it never bound has no outcome. -/
def stuck {A : Type} : Run Machine A :=
  Run.outOfFuel

def bound {A : Type} : Option A → Run Machine A
  | some value => return value
  | none => stuck

/-- The local values of a running function. The newest variable comes first. -/
structure Locals where
  held : List (String × Value)
  slots : List Value
  frame : Option Nat

namespace Locals

def empty : Locals :=
  ⟨[], [], none⟩

def read? (locals : Locals) : Code.Place → Option Value
  | .held name => locals.held.lookup name
  | .slot index => locals.slots[index]?

def bind (locals : Locals) (name : String) (value : Value) : Locals :=
  { locals with held := (name, value) :: locals.held }

/-- The variables that a pattern binds. -/
def unpack (locals : Locals) : List (Option String) → List Value → Locals
  | some name :: pattern, value :: values => (locals.bind name value).unpack pattern values
  | none :: pattern, _ :: values => locals.unpack pattern values
  | _, _ => locals

end Locals

def displaying {A : Type} (run : Run String A) : Run Machine A :=
  run.within output fun machine output => { machine with output := output }

mutual

/-- Arguments are evaluated from left to right before the procedure is looked up. -/
def evaluate (recur : Callee → List Value → Run Machine Value) (locals : Locals) :
    Code.Expr → Run Machine Value
  | .integer digits => Run.ofExcept (Value.ofDigits digits)
  | .character value => return .character value
  | .string content => return .string content
  | .boolean value => return .boolean value
  | .list elements => do return .list (← evaluateAll recur locals elements)
  | .vector elements => do return .vector (← evaluateAll recur locals elements)
  | .quotation quoted => do return .quotation (← evaluate recur locals quoted)
  | .read place => bound (locals.read? place)
  | .global name => Run.read (global name)
  | .dynamic name hasGlobal => Run.read (dynamic name hasGlobal)
  | .host builtin arguments => do
      recur (.host builtin) (← evaluateAll recur locals arguments)
  | .call procedure arguments => do
      let values ← evaluateAll recur locals arguments
      recur (← Run.read (callee procedure)) values
  | .conditional index arguments => do
      recur (.conditional index) (← evaluateAll recur locals arguments)

def evaluateAll (recur : Callee → List Value → Run Machine Value) (locals : Locals) :
    List Code.Expr → Run Machine (List Value)
  | [] => return []
  | expression :: rest => do
      let value ← evaluate recur locals expression
      let values ← evaluateAll recur locals rest
      return value :: values

end

def finish (recur : Callee → List Value → Run Machine Value) (locals : Locals) :
    Code.Tail → Run Machine Value
  | .value expression => evaluate recur locals expression
  | .branch condition consequent alternative => do
      if (← evaluate recur locals condition).isTrue then finish recur locals consequent
      else finish recur locals alternative

/-- A frame lasts until its function ends, also with an error. -/
def inFrame (run : Nat → Run Machine Value) : Run Machine Value :=
  fun machine =>
    let (frame, frames) := machine.frames.enter
    Run.between (fun state => { state with frames := frames })
      (fun state => { state with frames := state.frames.leave frame }) (run frame) machine

def publish (locals : Locals) (name : String) : Run Machine Unit := do
  let frame ← bound locals.frame
  let value ← bound (locals.read? (.held name))
  Run.update fun machine => { machine with frames := machine.frames.bind frame name value }

def plain (recur : Callee → List Value → Run Machine Value) (arguments : List Value)
    (result : Code.Tail) : Locals → List Code.Step → Run Machine Value
  | locals, [] => finish recur locals result
  | locals, .unpack pattern :: rest => do
      let values ← Run.ofExcept (parameters pattern.length arguments)
      plain recur arguments result (locals.unpack pattern values) rest
  | locals, .enterFrame :: rest =>
      inFrame fun frame => plain recur arguments result { locals with frame := some frame } rest
  | locals, .publish name :: rest => do
      publish locals name
      plain recur arguments result locals rest
  | locals, .bind name expression :: rest => do
      let value ← evaluate recur locals expression
      plain recur arguments result (locals.bind name value) rest
  | locals, .effect expression :: rest => do
      let _ ← evaluate recur locals expression
      plain recur arguments result locals rest

/-- Every round takes one unit of fuel. -/
def loop (recur : Callee → List Value → Run Machine Value) (negated : Bool)
    (condition : Code.Expr) (updates : List Code.Expr) (exit : Code.Tail) :
    Nat → List Value → Run Machine Value
  | 0, _ => Run.outOfFuel
  | fuel + 1, slots => do
      let locals : Locals := ⟨[], slots, none⟩
      if (← evaluate recur locals condition).isTrue != negated then
        let next ← evaluateAll recur locals updates
        loop recur negated condition updates exit fuel next
      else finish recur locals exit

def body (recur : Callee → List Value → Run Machine Value) (fuel : Nat)
    (arguments : List Value) : Code.Body → Run Machine Value
  | .plain steps result => plain recur arguments result .empty steps
  | .loop size negated condition updates exit => do
      let slots ← Run.ofExcept (parameters size arguments)
      loop recur negated condition updates exit fuel slots

def definition? (functions : List Code.Function) (name : String) (index : Nat) :
    Option Code.Body :=
  functions.findSome? fun
    | .procedure declared number body =>
        if declared = name && number = index then some body else none
    | .conditional _ _ _ => none

def conditional? (functions : List Code.Function) (index : Nat) :
    Option (List String × Code.Tail) :=
  functions.findSome? fun
    | .procedure _ _ _ => none
    | .conditional number params result => if number = index then some (params, result) else none

/-- A conditional takes one argument for every parameter. -/
def branch (recur : Callee → List Value → Run Machine Value) (arguments : List Value)
    (function : List String × Code.Tail) : Run Machine Value :=
  if function.1.length = arguments.length then
    finish recur (Locals.empty.unpack (function.1.map some) arguments) function.2
  else stuck

def call (functions : List Code.Function) : Nat → Callee → List Value → Run Machine Value
  | 0, _, _ => Run.outOfFuel
  | _ + 1, .host builtin, arguments => displaying (host arguments builtin)
  | fuel + 1, .definition name index, arguments => do
      body (call functions fuel) fuel arguments (← bound (definition? functions name index))
  | fuel + 1, .conditional index, arguments => do
      branch (call functions fuel) arguments (← bound (conditional? functions index))

/-- Binds a declared global to a value of its kind. -/
def defineGlobal (name : String) (value : Value) : Run Machine Unit := do
  let global ← Run.read fun machine =>
    match machine.globals.find? name with
    | some global => global.define value
    | none => .error (.undefinedVariable name)
  Run.update fun machine => { machine with globals := machine.globals.insert name global }

def bindProcedure (name : String) (callee : Callee) : Run Machine Unit :=
  Run.update fun machine =>
    { machine with
      procedures := machine.procedures.insert name (ProcedureSlot.define ⟨name, none⟩ callee) }

def execute (functions : List Code.Function) (fuel : Nat) : Code.Statement → Run Machine Unit
  | .evaluate expression => do
      let _ ← evaluate (call functions fuel) .empty expression
  | .define global expression => do
      defineGlobal global (← evaluate (call functions fuel) .empty expression)
  | .bind procedure index => bindProcedure procedure (.definition procedure index)

/-- The main statements of a program, from its initial state. -/
def run (fuel : Nat) (code : Code) : Outcome Machine Unit :=
  Run.each (execute code.functions fuel) code.main (ofCode code)

end SmallScheme.Machine
