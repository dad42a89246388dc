/-
This file turns names of the language into identifiers of generated code.
The identifiers of procedures, globals and locals start differently.
-/

import SmallScheme.Text.Escape

namespace SmallScheme.Code

/-- An ASCII letter or digit stands for itself, and every other character for its code point
between underscores. -/
def mangleChar (c : Char) : List Char :=
  if c.isAlphanum then [c] else '_' :: Text.hexadecimal c.toNat ++ ['_']

def mangle (name : String) : String :=
  String.ofList (name.toList.flatMap mangleChar)

def procedureName (name : String) : String :=
  "proc_" ++ mangle name

def globalName (name : String) : String :=
  "global_" ++ mangle name

def localName (name : String) : String :=
  "arg_" ++ mangle name

/-- A name that a number makes unique. -/
def numbered (stem : String) (index : Nat) : String :=
  s!"{stem}_{index}"

end SmallScheme.Code
