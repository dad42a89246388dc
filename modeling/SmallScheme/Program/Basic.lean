/-
This file gives programs: forms, definitions, expressions and quoted data.
-/

namespace SmallScheme

/-- A character literal keeps its name, which is checked when the literal is used. -/
inductive Literal where
  | integer (value : Int)
  | character (name : String)
  | string (content : String)
  | boolean (value : Bool)
  deriving DecidableEq, Repr

inductive Quoted where
  | constant (literal : Literal)
  | symbol (name : String)
  | list (elements : List Quoted)
  | vector (elements : List Quoted)
  | quotation (quoted : Quoted)

inductive Expression where
  | constant (literal : Literal)
  | identifier (name : String)
  | application (procedure : String) (operands : List Expression)
  | quotation (quoted : Quoted)

mutual

inductive Definition where
  | value (name : String) (expression : Expression)
  | procedure (definition : Procedure)

/-- A call runs the internal definitions and the effects, and the value of the body is its result. -/
structure Procedure where
  name : String
  params : List String
  definitions : List Definition
  effects : List Expression
  body : Expression

end

/-- A `begin` groups forms at the top level. -/
inductive Form where
  | expression (expression : Expression)
  | definition (definition : Definition)
  | begin (forms : List Form)

structure Program where
  forms : List Form

/-- The definition that binds a variable inside a procedure. -/
def Definition.value? : Definition → Option (String × Expression)
  | .value name expression => some (name, expression)
  | .procedure _ => none

/-- The variables that a call of the procedure binds after its parameters. -/
def Procedure.values (procedure : Procedure) : List (String × Expression) :=
  procedure.definitions.filterMap Definition.value?

end SmallScheme
