/-
This file lists the predefined procedures with their names and arities.
-/

import SmallScheme.RunError

namespace SmallScheme

inductive Arity where
  | exactly (count : Nat)
  | atLeast (count : Nat)
  deriving DecidableEq, Repr

namespace Arity

def accepts : Arity → Nat → Bool
  | .exactly count, given => count == given
  | .atLeast count, given => count ≤ given

def check (arity : Arity) (given : Nat) : Except RunError Unit :=
  if arity.accepts given then .ok ()
  else
    match arity with
    | .exactly count => .error (.arityMismatch given count)
    | .atLeast count => .error (.minimalArityMismatch given count)

end Arity

inductive Builtin where
  | add
  | subtract
  | multiply
  | quotient
  | less
  | lessEqual
  | greater
  | greaterEqual
  | numericEqual
  | equal
  | car
  | cdr
  | list
  | display
  deriving DecidableEq, Repr

namespace Builtin

def all : List Builtin :=
  [.add, .subtract, .multiply, .quotient, .less, .lessEqual, .greater, .greaterEqual,
    .numericEqual, .equal, .car, .cdr, .list, .display]

def name : Builtin → String
  | .add => "+"
  | .subtract => "-"
  | .multiply => "*"
  | .quotient => "quotient"
  | .less => "<"
  | .lessEqual => "<="
  | .greater => ">"
  | .greaterEqual => ">="
  | .numericEqual => "="
  | .equal => "equal?"
  | .car => "car"
  | .cdr => "cdr"
  | .list => "list"
  | .display => "display"

/-- The name of the function that compiled programs call. -/
def host : Builtin → String
  | .add => "add"
  | .subtract => "subtract"
  | .multiply => "multiply"
  | .quotient => "quotient"
  | .less => "less"
  | .lessEqual => "less_equal"
  | .greater => "greater"
  | .greaterEqual => "greater_equal"
  | .numericEqual => "numeric_equal"
  | .equal => "equal"
  | .car => "car"
  | .cdr => "cdr"
  | .list => "list"
  | .display => "display"

def arity : Builtin → Arity
  | .add => .atLeast 1
  | .subtract => .atLeast 1
  | .multiply => .atLeast 1
  | .quotient => .exactly 2
  | .less => .exactly 2
  | .lessEqual => .exactly 2
  | .greater => .exactly 2
  | .greaterEqual => .exactly 2
  | .numericEqual => .exactly 2
  | .equal => .exactly 2
  | .car => .exactly 1
  | .cdr => .exactly 1
  | .list => .atLeast 0
  | .display => .exactly 1

def ofName? (name : String) : Option Builtin :=
  all.find? (·.name == name)

def ofHost? (host : String) : Option Builtin :=
  all.find? (·.host == host)

end Builtin

end SmallScheme
