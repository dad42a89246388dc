/-
This file collects the declarations, functions and statements of a compiled program.
-/

import SmallScheme.Code.Basic
import SmallScheme.Code.Name

namespace SmallScheme

/-- The parts are typed code while a program is compiled, and text once it is written. -/
structure Assembly (Host Function Statement : Type) where
  globals : List (String × Kind)
  procedures : List (String × Option Host)
  functions : List Function
  main : List Statement
  freshCount : Nat

namespace Assembly

variable {Host Function Statement : Type}

def empty : Assembly Host Function Statement :=
  ⟨[], [], [], [], 0⟩

/-- A global that takes values of different kinds is computed. -/
def declareKind (name : String) (kind : Kind) : List (String × Kind) → List (String × Kind)
  | [] => [(name, kind)]
  | (declared, known) :: rest =>
      if declared = name then (declared, if known = kind then known else .computed) :: rest
      else (declared, known) :: declareKind name kind rest

def declareGlobal (assembly : Assembly Host Function Statement) (name : String) (kind : Kind) :
    Assembly Host Function Statement :=
  { assembly with globals := declareKind name kind assembly.globals }

def kind? (assembly : Assembly Host Function Statement) (name : String) : Option Kind :=
  assembly.globals.lookup name

/-- A procedure is declared once, with the predefined procedure of its name. -/
def declareProcedure (assembly : Assembly Host Function Statement) (name : String)
    (predefined : Option Host) : Assembly Host Function Statement :=
  if assembly.procedures.any (·.1 == name) then assembly
  else { assembly with procedures := assembly.procedures ++ [(name, predefined)] }

def declareFunction (assembly : Assembly Host Function Statement) (function : Function) :
    Assembly Host Function Statement :=
  { assembly with functions := assembly.functions ++ [function] }

def addStatement (assembly : Assembly Host Function Statement) (statement : Statement) :
    Assembly Host Function Statement :=
  { assembly with main := assembly.main ++ [statement] }

/-- A number that no other call gives. -/
def fresh (assembly : Assembly Host Function Statement) :
    Nat × Assembly Host Function Statement :=
  (assembly.freshCount, { assembly with freshCount := assembly.freshCount + 1 })

def freshName (assembly : Assembly Host Function Statement) (stem : String) :
    String × Assembly Host Function Statement :=
  let (index, after) := assembly.fresh
  (Code.numbered stem index, after)

end Assembly

/-- A compiled program. -/
abbrev Code : Type :=
  Assembly Builtin Code.Function Code.Statement

end SmallScheme
