/-
This file gives the predefined procedures on the data of a session.
-/

import SmallScheme.Builtin
import SmallScheme.Data.Value
import SmallScheme.Session.Sink

namespace SmallScheme.Session

def integer (datum : Datum) : Except RunError Int :=
  match datum.integer? with
  | some value => .ok value
  | none => .error (.wrongArgumentType "integer")

def integers (arguments : List Datum) : Except RunError (List Int) :=
  arguments.mapM integer

def one (arguments : List Datum) : Except RunError Datum :=
  match arguments with
  | [argument] => .ok argument
  | _ => .error (.arityMismatch arguments.length 1)

def two (arguments : List Datum) : Except RunError (Datum × Datum) :=
  match arguments with
  | [left, right] => .ok (left, right)
  | _ => .error (.arityMismatch arguments.length 2)

def elements (datum : Datum) : Except RunError (List Datum) :=
  match datum.elements? with
  | some elements => .ok elements
  | none => .error (.wrongArgumentType "pair")

def integerPair (arguments : List Datum) : Except RunError (Int × Int) := do
  let (left, right) ← two arguments
  return (← integer left, ← integer right)

def compare (comparison : Int → Int → Bool) (arguments : List Datum) : Except RunError Datum := do
  let (left, right) ← integerPair arguments
  return .boolean (comparison left right)

/-- One argument is negated, and of more the first loses the others. -/
def difference : List Int → Except RunError Int
  | [] => .error (.minimalArityMismatch 0 1)
  | [only] => .ok (-only)
  | first :: rest => .ok (rest.foldl (· - ·) first)

/-- Division rounds toward zero. -/
def quotient (arguments : List Datum) : Except RunError Datum := do
  let (dividend, divisor) ← integerPair arguments
  if divisor = 0 then .error .divisionByZero else return .integer (dividend.tdiv divisor)

def equal (arguments : List Datum) : Except RunError Datum := do
  let (left, right) ← two arguments
  return .boolean (left.equal right)

def car (arguments : List Datum) : Except RunError Datum := do
  Datum.car (← elements (← one arguments))

def cdr (arguments : List Datum) : Except RunError Datum := do
  return .list (← Datum.cdr (← elements (← one arguments)))

/-- This is the only procedure that writes. -/
def display (arguments : List Datum) : Run Sink Datum := do
  let datum ← Run.ofExcept (one arguments)
  Sink.writeLine (Value.ofDatum datum).shown
  return .void

/-- Calls a procedure without a look at its declared arity. -/
def call (arguments : List Datum) : Builtin → Run Sink Datum
  | .add => Run.ofExcept do return .integer ((← integers arguments).foldl (· + ·) 0)
  | .subtract => Run.ofExcept do return .integer (← difference (← integers arguments))
  | .multiply => Run.ofExcept do return .integer ((← integers arguments).foldl (· * ·) 1)
  | .quotient => Run.ofExcept (quotient arguments)
  | .less => Run.ofExcept (compare (fun left right => left < right) arguments)
  | .lessEqual => Run.ofExcept (compare (fun left right => left ≤ right) arguments)
  | .greater => Run.ofExcept (compare (fun left right => left > right) arguments)
  | .greaterEqual => Run.ofExcept (compare (fun left right => left ≥ right) arguments)
  | .numericEqual => Run.ofExcept (compare (fun left right => left == right) arguments)
  | .equal => Run.ofExcept (equal arguments)
  | .car => Run.ofExcept (car arguments)
  | .cdr => Run.ofExcept (cdr arguments)
  | .list => Run.ofExcept (.ok (.list arguments))
  | .display => display arguments

def apply (builtin : Builtin) (arguments : List Datum) : Run Sink Datum := do
  Run.ofExcept (builtin.arity.check arguments.length)
  call arguments builtin

end SmallScheme.Session
