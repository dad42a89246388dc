/-
This file lays out the text of a whole compiled program.
-/

import SmallScheme.Code.Text

namespace SmallScheme

/-- A function as text, with its parameters as the signature declares them. -/
structure FunctionText where
  name : String
  params : List String
  body : List String

/-- A compiled program as text, before it is laid out. -/
abbrev Listing : Type :=
  Assembly String FunctionText String

def FunctionText.ofFunction : Code.Function → FunctionText
  | .procedure name index body =>
      ⟨Code.definitionName name index, ["arguments: &[Value]"], body.text⟩
  | .conditional index params result =>
      ⟨Code.conditionalName index, params.map fun param => s!"{Code.localName param}: Value",
        [result.text]⟩

/-- Every part of the program as text. -/
def Code.listing (code : Code) : Listing :=
  { globals := code.globals
    procedures := code.procedures.map fun declaration =>
      (declaration.1, declaration.2.map Builtin.host)
    functions := code.functions.map .ofFunction
    main := code.main.map Code.Statement.text
    freshCount := code.freshCount }

def Kind.declaredName : Kind → String
  | .integer => "Integer"
  | .character => "Character"
  | .string => "String"
  | .boolean => "Boolean"
  | .computed => "Computed"

namespace Listing

/-- The indented lines of a sequence of statements. -/
def statementLines (statements : List String) : List String :=
  (statements.flatMap Text.lines).map Text.indentLine

def functionLines (function : FunctionText) : List String :=
  [s!"fn {function.name}({Code.commas function.params}) -> Result<Value, SchemeError> \x7b"] ++
    statementLines function.body ++ ["\x7d"]

def globalLine (global : String × Kind) : String :=
  s!"static {Code.globalName global.1}: Global = " ++
    s!"Global::new({Text.quoteString global.1}, Kind::{global.2.declaredName});"

def procedureLine (procedure : String × Option String) : String :=
  s!"static {Code.procedureName procedure.1}: Procedure = " ++
    match procedure.2 with
    | some host => s!"Procedure::predefined({Text.quoteString procedure.1}, world::{host});"
    | none => s!"Procedure::new({Text.quoteString procedure.1});"

def headerLines (name : String) : List String :=
  [s!"//! Compiled from {name} by bytescheme",
    "#![allow(dead_code, non_snake_case, non_upper_case_globals, unused_mut, " ++
      "unused_variables, unused_imports, clippy::all)]",
    "use bytescheme::\x7bruntime::SchemeError, " ++
      "world::\x7bself, Frame, Global, Kind, Procedure, Value\x7d\x7d;"]

def declarationLines (listing : Listing) : List String :=
  let declarations :=
    listing.globals.map globalLine ++ listing.procedures.map procedureLine
  if declarations.isEmpty then [] else "" :: declarations

def runLines (main : List String) : List String :=
  ["", "pub fn run() -> Result<(), SchemeError> \x7b"] ++ statementLines main ++
    ["    Ok(())", "\x7d"]

def mainLines : List String :=
  ["",
    "fn main() \x7b",
    "    if let Err(error) = run() \x7b",
    "        eprintln!(\"\x7berror\x7d\");",
    "        std::process::exit(1);",
    "    \x7d",
    "\x7d"]

/-- The file of the program, whose first line names its source. -/
def render (listing : Listing) (name : String) : String :=
  Text.unlines
    (headerLines name ++ declarationLines listing ++
      listing.functions.flatMap (fun function => "" :: functionLines function) ++
      runLines listing.main ++ mainLines)

end Listing

end SmallScheme
