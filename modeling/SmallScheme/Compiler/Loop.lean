/-
This file recognizes the self recursion that runs as a loop: a body that is a conditional with a
self call as one of its branches.
-/

import SmallScheme.Program.Basic

namespace SmallScheme

/-- The loop goes on while the condition holds, or while it fails if negated, and replaces every
parameter by its update. -/
structure LoopPlan where
  condition : Expression
  negated : Bool
  updates : List Expression
  exit : Expression

namespace Procedure

/-- The operands of a self call with one operand for every parameter. -/
def selfCall? (procedure : Procedure) : Expression → Option (List Expression)
  | .application name operands =>
      if name = procedure.name && operands.length = procedure.params.length then some operands
      else none
  | _ => none

/-- Two self calls never leave the loop, and none makes no loop. -/
def branchPlan? (procedure : Procedure) (condition consequent alternative : Expression) :
    Option LoopPlan :=
  match procedure.selfCall? consequent, procedure.selfCall? alternative with
  | some updates, none => some ⟨condition, false, updates, alternative⟩
  | none, some updates => some ⟨condition, true, updates, consequent⟩
  | _, _ => none

/-- Code before the body would run in every iteration, so a loop has none. -/
def loopPlan? (procedure : Procedure) : Option LoopPlan :=
  match procedure.definitions, procedure.effects, procedure.body with
  | [], [], .application "if" [condition, consequent, alternative] =>
      procedure.branchPlan? condition consequent alternative
  | _, _, _ => none

end Procedure

end SmallScheme
