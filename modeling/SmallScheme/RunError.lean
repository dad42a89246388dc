/-
This file gives the errors that cancel the evaluation or the compilation of a form.
-/

namespace SmallScheme

inductive RunError where
  | undefinedVariable (name : String)
  | undefinedProcedure (name : String)
  | arityMismatch (got expected : Nat)
  | minimalArityMismatch (got expected : Nat)
  | parameterMismatch (expected got : Nat)
  | wrongArgumentType (expected : String)
  | characterLiteral (text : String)
  | divisionByZero
  | output (reason : String)
  deriving DecidableEq, Repr

def RunError.message : RunError → String
  | .undefinedVariable name => s!"Undefined variable '{name}'"
  | .undefinedProcedure name => s!"Undefined procedure '{name}'"
  | .arityMismatch got expected =>
      s!"Arguments count {got} does not match expected arity of {expected}"
  | .minimalArityMismatch got expected =>
      s!"Arguments count {got} does not match expected minimal arity of {expected}"
  | .parameterMismatch expected got =>
      s!"Expected {expected} argument(s) but got {got} argument(s)"
  | .wrongArgumentType expected => s!"Wrong argument type: Expected {expected}"
  | .characterLiteral text => s!"Could not evaluate character literal '{text}'"
  | .divisionByZero => "Division by zero"
  | .output reason => s!"Could not write output: {reason}"

end SmallScheme
