/-
This file compiles programs into code.
-/

import SmallScheme.Code.Assembly
import SmallScheme.Compiler.Analysis
import SmallScheme.Compiler.Loop
import SmallScheme.Compiler.Scope

namespace SmallScheme.Compiler

/-- Compilation adds to the code made so far, or fails. -/
abbrev Generate (A : Type) : Type :=
  StateT Code (Except RunError) A

def change (update : Code → Code) : Generate Unit :=
  modify update

def fresh : Generate Nat :=
  modifyGet Assembly.fresh

def constant : Literal → Except RunError Code.Expr
  | .integer value => .ok (.integer (Text.Decimal.text value))
  | .character name => return .character (← Character.ofName name)
  | .string content => .ok (.string content)
  | .boolean value => .ok (.boolean value)

mutual

def quoted : Quoted → Except RunError Code.Expr
  | .constant literal => constant literal
  | .symbol name => .ok (.string name)
  | .list elements => return .list (← allQuoted elements)
  | .vector elements => return .vector (← allQuoted elements)
  | .quotation datum => return .quotation (← quoted datum)

def allQuoted : List Quoted → Except RunError (List Code.Expr)
  | [] => return []
  | datum :: rest => return (← quoted datum) :: (← allQuoted rest)

end

/-- A local comes first, then a name that callers may bind, then a global. -/
def identifier (analysis : Analysis) (scope : Scope) (name : String) :
    Except RunError Code.Expr :=
  match scope.lookup name with
  | some place => .ok (.read place)
  | none =>
      if analysis.isDynamic name then .ok (.dynamic name (analysis.isGlobal name))
      else if analysis.isGlobal name then .ok (.global name)
      else .error (.undefinedVariable name)

/-- The arity of a procedure of the program depends on the definition in effect, so only that of a
predefined one is checked. -/
def application (analysis : Analysis) (procedure : String) (count : Nat)
    (arguments : Generate (List Code.Expr)) : Generate Code.Expr := do
  if analysis.isProcedure procedure then
    return .call procedure (← arguments)
  else
    match Builtin.ofName? procedure with
    | none => throw (.undefinedProcedure procedure)
    | some builtin =>
        builtin.arity.check count
        return .host builtin (← arguments)

/-- The arguments of a conditional are all the visible locals. -/
def visibleReads (scope : Scope) : List Code.Expr :=
  (scope.visible.filterMap scope.lookup).map .read

mutual

/-- A conditional in the place of a value becomes a function of the visible locals. -/
def expression (analysis : Analysis) (scope : Scope) : Expression → Generate Code.Expr
  | .constant literal => constant literal
  | .quotation datum => quoted datum
  | .identifier name => identifier analysis scope name
  | .application procedure operands =>
      if procedure = "if" then
        match operands with
        | [condition, consequent, alternative] => do
            let index ← fresh
            let inner := Scope.parameters scope.visible
            let condition ← expression analysis inner condition
            let consequent ← tail analysis inner consequent
            let alternative ← tail analysis inner alternative
            change (·.declareFunction
              (.conditional index scope.visible (.branch condition consequent alternative)))
            return .conditional index (visibleReads scope)
        | _ => throw (.arityMismatch operands.length 3)
      else application analysis procedure operands.length (expressions analysis scope operands)

/-- The code that returns the value of an expression from a function. -/
def tail (analysis : Analysis) (scope : Scope) : Expression → Generate Code.Tail
  | .constant literal => return .value (← constant literal)
  | .quotation datum => return .value (← quoted datum)
  | .identifier name => return .value (← identifier analysis scope name)
  | .application procedure operands =>
      if procedure = "if" then
        match operands with
        | [condition, consequent, alternative] => do
            let condition ← expression analysis scope condition
            let consequent ← tail analysis scope consequent
            let alternative ← tail analysis scope alternative
            return .branch condition consequent alternative
        | _ => throw (.arityMismatch operands.length 3)
      else
        return .value (← application analysis procedure operands.length
          (expressions analysis scope operands))

def expressions (analysis : Analysis) (scope : Scope) :
    List Expression → Generate (List Code.Expr)
  | [] => return []
  | operand :: rest => do
      let first ← expression analysis scope operand
      let others ← expressions analysis scope rest
      return first :: others

end

def loopBody (analysis : Analysis) (procedure : Procedure) (plan : LoopPlan) :
    Generate Code.Body := do
  let scope := Scope.slots procedure.params
  let condition ← expression analysis scope plan.condition
  let updates ← expressions analysis scope plan.updates
  let exit ← tail analysis scope plan.exit
  return .loop procedure.params.length plan.negated condition updates exit

/-- A repeated parameter is bound to its last argument. -/
def pattern : List String → List (Option String)
  | [] => []
  | param :: rest => (if rest.contains param then none else some param) :: pattern rest

def publishIf (analysis : Analysis) (name : String) : List Code.Step :=
  if analysis.isDynamic name then [.publish name] else []

/-- The frame of a call that publishes names, with its parameters. -/
def frameSteps (analysis : Analysis) (procedure : Procedure) : List Code.Step :=
  if analysis.publishes procedure then
    .enterFrame :: procedure.params.eraseDups.flatMap (publishIf analysis)
  else []

/-- The internal variables, with the scope after them. -/
def valueSteps (analysis : Analysis) (scope : Scope) :
    List (String × Expression) → Generate (List Code.Step × Scope)
  | [] => return ([], scope)
  | (name, value) :: rest => do
      let code ← expression analysis scope value
      let (steps, last) ← valueSteps analysis (scope.bind name) rest
      return (.bind name code :: publishIf analysis name ++ steps, last)

def plainBody (analysis : Analysis) (procedure : Procedure) : Generate Code.Body := do
  let (values, scope) ←
    valueSteps analysis (Scope.parameters procedure.params) procedure.values
  let effects ← expressions analysis scope procedure.effects
  let result ← tail analysis scope procedure.body
  return .plain
    (.unpack (pattern procedure.params) :: frameSteps analysis procedure ++ values ++
      effects.map .effect)
    result

/-- A loop publishes nothing, since its parameters stand in no frame. -/
def body (analysis : Analysis) (procedure : Procedure) : Generate Code.Body :=
  match procedure.loopPlan? with
  | some plan =>
      if analysis.publishes procedure then plainBody analysis procedure
      else loopBody analysis procedure plan
  | none => plainBody analysis procedure

/-- Declares the procedure and one function for this definition of it. -/
def function (analysis : Analysis) (procedure : Procedure) : Generate Nat := do
  change (·.declareProcedure procedure.name (Builtin.ofName? procedure.name))
  let index ← fresh
  let code ← body analysis procedure
  change (·.declareFunction (.procedure procedure.name index code))
  return index

mutual

/-- The procedures inside a procedure are bound along with it. -/
def procedure (analysis : Analysis) : Procedure → Generate Unit
  | ⟨name, params, definitions, effects, result⟩ => do
      let index ← function analysis ⟨name, params, definitions, effects, result⟩
      change (·.addStatement (.bind name index))
      internal analysis definitions

def internalDefinition (analysis : Analysis) : Definition → Generate Unit
  | .value _ _ => return
  | .procedure definition => procedure analysis definition

def internal (analysis : Analysis) : List Definition → Generate Unit
  | [] => return
  | definition :: rest => do
      internalDefinition analysis definition
      internal analysis rest

end

/-- A constant has the kind of its literal, and a known global keeps its kind. -/
def kindOf (code : Code) : Expression → Kind
  | .constant (.integer _) => .integer
  | .constant (.character _) => .character
  | .constant (.string _) => .string
  | .constant (.boolean _) => .boolean
  | .identifier name => (code.kind? name).getD .computed
  | _ => .computed

def global (analysis : Analysis) (name : String) (value : Expression) : Generate Unit := do
  let code ← expression analysis .empty value
  change fun assembly => assembly.declareGlobal name (kindOf assembly value)
  change (·.addStatement (.define name code))

mutual

def form (analysis : Analysis) : Form → Generate Unit
  | .expression value => do
      let code ← expression analysis .empty value
      change (·.addStatement (.evaluate code))
  | .definition (.value name value) => global analysis name value
  | .definition (.procedure definition) => procedure analysis definition
  | .begin group => forms analysis group

def forms (analysis : Analysis) : List Form → Generate Unit
  | [] => return
  | first :: rest => do
      form analysis first
      forms analysis rest

end

/-- The code of a program, or the first error that is visible without running it. -/
def compile (program : Program) : Except RunError Code := do
  let (_, code) ← (forms (Analysis.ofProgram program) program.forms).run .empty
  return code

end SmallScheme.Compiler
