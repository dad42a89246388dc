/-
This file gives the code of compiled programs: expressions, functions and the statements of the main
function.
-/

import SmallScheme.Builtin
import SmallScheme.Data.Value

namespace SmallScheme.Code

/-- A local value is held by a variable, or by a slot of the working array of a loop. -/
inductive Place where
  | held (name : String)
  | slot (index : Nat)
  deriving DecidableEq, Repr

/-- An integer constant carries its decimal text. A dynamic read searches the frames of the callers
before the global, if there is one. -/
inductive Expr where
  | integer (digits : String)
  | character (value : Char)
  | string (content : String)
  | boolean (value : Bool)
  | list (elements : List Expr)
  | vector (elements : List Expr)
  | quotation (quoted : Expr)
  | read (place : Place)
  | global (name : String)
  | dynamic (name : String) (hasGlobal : Bool)
  | host (builtin : Builtin) (arguments : List Expr)
  | call (procedure : String) (arguments : List Expr)
  | conditional (index : Nat) (arguments : List Expr)

/-- The end of a function, which returns a value. -/
inductive Tail where
  | value (expression : Expr)
  | branch (condition : Expr) (consequent alternative : Tail)

/-- Unpacking binds the arguments, and an argument without a name is dropped. Publishing makes a
local visible to callees through the frame. -/
inductive Step where
  | unpack (pattern : List (Option String))
  | enterFrame
  | publish (name : String)
  | bind (name : String) (expression : Expr)
  | effect (expression : Expr)

/-- A loop keeps its parameters in an array and replaces them all at once. -/
inductive Body where
  | plain (steps : List Step) (result : Tail)
  | loop (size : Nat) (negated : Bool) (condition : Expr) (updates : List Expr) (exit : Tail)

/-- One definition of a procedure, or a conditional in the place of a value. -/
inductive Function where
  | procedure (name : String) (index : Nat) (body : Body)
  | conditional (index : Nat) (params : List String) (result : Tail)

inductive Statement where
  | evaluate (expression : Expr)
  | define (global : String) (expression : Expr)
  | bind (procedure : String) (index : Nat)

end SmallScheme.Code
