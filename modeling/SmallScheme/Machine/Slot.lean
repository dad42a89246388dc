/-
This file gives the slots that hold the globals and the procedures of a compiled program.
-/

import SmallScheme.Machine.Frames

namespace SmallScheme

structure Global where
  name : String
  kind : Kind
  value : Option Value

namespace Global

def new (name : String) (kind : Kind) : Global :=
  ⟨name, kind, none⟩

/-- A global takes only values of its kind. -/
def define (global : Global) (value : Value) : Except RunError Global :=
  if global.kind.admits value then .ok { global with value := some value }
  else .error (.wrongArgumentType global.kind.describe)

def get (global : Global) : Except RunError Value :=
  match global.value with
  | some value => .ok value
  | none => .error (.undefinedVariable global.name)

end Global

/-- A procedure is bound to the code of its latest definition. -/
structure ProcedureSlot (Code : Type) where
  name : String
  code : Option Code

namespace ProcedureSlot

variable {Code : Type}

def define (slot : ProcedureSlot Code) (code : Code) : ProcedureSlot Code :=
  { slot with code := some code }

def get (slot : ProcedureSlot Code) : Except RunError Code :=
  match slot.code with
  | some code => .ok code
  | none => .error (.undefinedProcedure slot.name)

end ProcedureSlot

/-- A name that callers may bind is searched in the frames before the global. -/
def Frames.read (frames : Frames) (name : String) (global : Option Global) :
    Except RunError Value :=
  match frames.find? name, global with
  | some value, _ => .ok value
  | none, some global => global.get
  | none, none => .error (.undefinedVariable name)

end SmallScheme
