/-
This file gives the state of a running compiled program.
-/

import SmallScheme.Code.Assembly
import SmallScheme.Machine.Slot
import SmallScheme.Table

namespace SmallScheme

/-- What a call runs: a predefined procedure, one definition of a procedure, or a conditional. -/
inductive Callee where
  | host (builtin : Builtin)
  | definition (name : String) (index : Nat)
  | conditional (index : Nat)
  deriving DecidableEq, Repr

structure Machine where
  globals : Table Global
  procedures : Table (ProcedureSlot Callee)
  frames : Frames
  output : String

namespace Machine

/-- The state before the program runs. A predefined procedure stays in effect until the program
defines one of its name. -/
def ofCode (code : Code) : Machine :=
  { globals := .ofPairs (code.globals.map fun declaration =>
      (declaration.1, .new declaration.1 declaration.2))
    procedures := .ofPairs (code.procedures.map fun declaration =>
      (declaration.1, ⟨declaration.1, declaration.2.map .host⟩))
    frames := .empty
    output := "" }

def global (name : String) (machine : Machine) : Except RunError Value :=
  match machine.globals.find? name with
  | some global => global.get
  | none => .error (.undefinedVariable name)

def dynamic (name : String) (hasGlobal : Bool) (machine : Machine) : Except RunError Value :=
  machine.frames.read name (if hasGlobal then machine.globals.find? name else none)

def callee (name : String) (machine : Machine) : Except RunError Callee :=
  match machine.procedures.find? name with
  | some slot => slot.get
  | none => .error (.undefinedProcedure name)

/-- Runs with an output of its own, which is given back with the result. -/
def capture {F : Type → Type} [Monad F] {A : Type} (run : Machine → F (A × Machine))
    (machine : Machine) : F ((A × String) × Machine) := do
  let (result, after) ← run { machine with output := "" }
  return ((result, after.output), { after with output := machine.output })

end Machine

end SmallScheme
