/-
This file collects the names that a program defines, and the local names that a procedure may read
from the frame of a caller.
-/

import SmallScheme.Program.Basic

namespace SmallScheme

mutual

/-- The identifiers that an expression reads and that the scope does not bind. -/
def Expression.free (scope : List String) : Expression → List String
  | .constant _ => []
  | .quotation _ => []
  | .identifier name => if scope.contains name then [] else [name]
  | .application _ operands => Expression.allFree scope operands

def Expression.allFree (scope : List String) : List Expression → List String
  | [] => []
  | expression :: rest => expression.free scope ++ Expression.allFree scope rest

end

mutual

/-- The procedure with every procedure defined inside it. -/
def Procedure.nested : Procedure → List Procedure
  | ⟨name, params, definitions, effects, body⟩ =>
      ⟨name, params, definitions, effects, body⟩ :: Definition.allNested definitions

def Definition.nested : Definition → List Procedure
  | .value _ _ => []
  | .procedure procedure => procedure.nested

def Definition.allNested : List Definition → List Procedure
  | [] => []
  | definition :: rest => definition.nested ++ Definition.allNested rest

end

/-- The names that a call of the procedure binds in its own frame. -/
def Procedure.locals (procedure : Procedure) : List String :=
  procedure.params ++ procedure.values.map Prod.fst

/-- The free identifiers of internal variables. Each sees the ones before it. -/
def Procedure.freeValues (scope : List String) : List (String × Expression) → List String
  | [] => []
  | (name, expression) :: rest =>
      expression.free scope ++ Procedure.freeValues (scope ++ [name]) rest

/-- The identifiers that the procedure's own code reads and does not bind. -/
def Procedure.free (procedure : Procedure) : List String :=
  Procedure.freeValues procedure.params procedure.values ++
    Expression.allFree procedure.locals (procedure.effects ++ [procedure.body])

mutual

/-- The top-level definitions in source order. -/
def Form.definitions : Form → List Definition
  | .expression _ => []
  | .definition made => [made]
  | .begin forms => Form.allDefinitions forms

def Form.allDefinitions : List Form → List Definition
  | [] => []
  | form :: rest => form.definitions ++ Form.allDefinitions rest

end

def Program.definitions (program : Program) : List Definition :=
  Form.allDefinitions program.forms

/-- Every procedure that the program defines, an outer one before its internal ones. -/
def Program.procedures (program : Program) : List Procedure :=
  Definition.allNested program.definitions

/-- The names of the program, collected before any code is generated. -/
structure Analysis where
  procedures : List String
  globals : List String
  dynamic : List String

namespace Analysis

def ofProgram (program : Program) : Analysis :=
  let locals := program.procedures.flatMap Procedure.locals
  { procedures := program.procedures.map Procedure.name
    globals := program.definitions.filterMap fun definition => definition.value?.map Prod.fst
    dynamic := (program.procedures.flatMap Procedure.free).filter locals.contains }

def isProcedure (analysis : Analysis) (name : String) : Bool :=
  analysis.procedures.contains name

def isGlobal (analysis : Analysis) (name : String) : Bool :=
  analysis.globals.contains name

def isDynamic (analysis : Analysis) (name : String) : Bool :=
  analysis.dynamic.contains name

/-- Whether a call of the procedure binds names that its callees may read. -/
def publishes (analysis : Analysis) (procedure : Procedure) : Bool :=
  procedure.locals.any analysis.isDynamic

end Analysis

end SmallScheme
