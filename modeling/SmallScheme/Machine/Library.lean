/-
This file gives the predefined procedures on the values of compiled programs.
The state of a procedure is the text that was displayed so far.
-/

import SmallScheme.Builtin
import SmallScheme.Data.Value
import SmallScheme.Run

namespace SmallScheme.Machine

def atLeastOne (arguments : List Value) : Except RunError Unit :=
  match arguments with
  | [] => .error (.minimalArityMismatch 0 1)
  | _ => .ok ()

def one (arguments : List Value) : Except RunError Value :=
  match arguments with
  | [argument] => .ok argument
  | _ => .error (.arityMismatch arguments.length 1)

def two (arguments : List Value) : Except RunError (Value × Value) :=
  match arguments with
  | [left, right] => .ok (left, right)
  | _ => .error (.arityMismatch arguments.length 2)

def integer : Value → Except RunError Int
  | .integer value => .ok value
  | _ => .error (.wrongArgumentType "integer")

def integers (arguments : List Value) : Except RunError (List Int) :=
  arguments.mapM integer

/-- The first element of a list and the others. -/
def pair : Value → Except RunError (Value × List Value)
  | .list (first :: rest) => .ok (first, rest)
  | _ => .error (.wrongArgumentType "pair")

def add (arguments : List Value) : Except RunError Value := do
  atLeastOne arguments
  return .integer ((← integers arguments).foldl (· + ·) 0)

/-- One argument is negated, and of more the first loses the others. -/
def difference : List Int → Int
  | [] => 0
  | [only] => -only
  | first :: rest => rest.foldl (· - ·) first

def subtract (arguments : List Value) : Except RunError Value := do
  atLeastOne arguments
  return .integer (difference (← integers arguments))

def multiply (arguments : List Value) : Except RunError Value := do
  atLeastOne arguments
  return .integer ((← integers arguments).foldl (· * ·) 1)

/-- Division rounds toward zero. -/
def quotient (arguments : List Value) : Except RunError Value := do
  let (left, right) ← two arguments
  let dividend ← integer left
  let divisor ← integer right
  if divisor = 0 then .error .divisionByZero else return .integer (dividend.tdiv divisor)

def compare (comparison : Int → Int → Bool) (arguments : List Value) : Except RunError Value := do
  let (left, right) ← two arguments
  return .boolean (comparison (← integer left) (← integer right))

def equal (arguments : List Value) : Except RunError Value := do
  let (left, right) ← two arguments
  return .boolean (left.same right)

def car (arguments : List Value) : Except RunError Value := do
  let (first, _) ← pair (← one arguments)
  return first

def cdr (arguments : List Value) : Except RunError Value := do
  let (_, rest) ← pair (← one arguments)
  return .list rest

def display (arguments : List Value) : Run String Value := do
  let value ← Run.ofExcept (one arguments)
  Run.update (· ++ value.shown ++ "\n")
  return .void

/-- The function that stands for a predefined procedure. -/
def host (arguments : List Value) : Builtin → Run String Value
  | .add => Run.ofExcept (add arguments)
  | .subtract => Run.ofExcept (subtract arguments)
  | .multiply => Run.ofExcept (multiply arguments)
  | .quotient => Run.ofExcept (quotient arguments)
  | .less => Run.ofExcept (compare (fun left right => left < right) arguments)
  | .lessEqual => Run.ofExcept (compare (fun left right => left ≤ right) arguments)
  | .greater => Run.ofExcept (compare (fun left right => left > right) arguments)
  | .greaterEqual => Run.ofExcept (compare (fun left right => left ≥ right) arguments)
  | .numericEqual => Run.ofExcept (compare (fun left right => left == right) arguments)
  | .equal => Run.ofExcept (equal arguments)
  | .car => Run.ofExcept (car arguments)
  | .cdr => Run.ofExcept (cdr arguments)
  | .list => Run.ofExcept (.ok (.list arguments))
  | .display => display arguments

/-- The arguments of a compiled procedure, one for every parameter. -/
def parameters (count : Nat) (arguments : List Value) : Except RunError (List Value) :=
  if arguments.length = count then .ok arguments
  else .error (.parameterMismatch count arguments.length)

end SmallScheme.Machine
