/-
This file gives the commands of the program: run a file, compile a file, or start a session.
-/

import SmallScheme.Code.Listing
import SmallScheme.Compiler.Generate
import SmallScheme.Shell.Console
import SmallScheme.Shell.Directory
import SmallScheme.Text.Lines

namespace SmallScheme

inductive Command where
  | session
  | run (path : String)
  | compile (paths : List String)
  deriving DecidableEq, Repr

namespace Command

def isOption (argument : String) : Bool :=
  argument != "-" && argument.toList.head? == some '-'

/-- The values among the arguments. Two dashes end the options, and no option is known. -/
def operands? : List String → Option (List String)
  | [] => some []
  | "--" :: rest => some rest
  | argument :: rest =>
      if isOption argument then none else (operands? rest).map (argument :: ·)

/-- An empty value names no file. -/
def paths? (arguments : List String) : Option (List String) :=
  (operands? arguments).filter (!·.contains "")

def ofArguments? : List String → Option Command
  | [] => some .session
  | ["--"] => some .session
  | "run" :: arguments =>
      match paths? arguments with
      | some [path] => some (.run path)
      | _ => none
  | "compile" :: arguments => (paths? arguments).map .compile
  | _ => none

end Command

/-- What a command tells its user. -/
structure Ending where
  exitCode : Nat
  output : String
  notices : List Notice

namespace Ending

def failed (notice : Notice) : Ending :=
  ⟨1, "", [notice]⟩

/-- An attempt that failed, with its cause. -/
def unable (attempt : String) (error : FileError) : Ending :=
  failed (.plain s!"Error: could not {attempt}\n\nCaused by:\n    {error.message}")

def unreadable (path : String) (error : FileError) : Ending :=
  unable s!"read {path}" error

def unwritable (path : String) (error : FileError) : Ending :=
  unable s!"write {path}" error

def wrongCount : Ending :=
  failed (.plain "Received wrong number of arguments")

end Ending

namespace Command

def runText (fuel : Nat) (path text : String) : Option Ending := do
  let (succeeded, console) ← Console.fresh.evaluate fuel path text
  return ⟨if succeeded then 0 else 1, console.output, console.notices⟩

def runFile {m : Type → Type} [Monad m] (fuel : Nat) (files : FileAccess m) (path : String) :
    m (Option Ending) := do
  match ← files.read path with
  | .error error => return some (.unreadable path error)
  | .ok text => return runText fuel path text

/-- The text of the compiled program, which names its source. -/
def compileText (path text : String) : Except Notice String :=
  match Program.ofSource text with
  | .error error => .error (.ofSyntaxError path text error)
  | .ok program =>
      match Compiler.compile program with
      | .error error => .error (.highlighted error.message)
      | .ok code => .ok (code.listing.render ((Path.fileName? path).getD path))

/-- The compiled program is written next to its source. -/
def compileFile {m : Type → Type} [Monad m] (files : FileAccess m) (path : String) :
    m Ending := do
  match ← files.read path with
  | .error error => return .unreadable path error
  | .ok text =>
      match compileText path text with
      | .error notice => return .failed notice
      | .ok compiled =>
          let target := Path.withExtension path "rs"
          match ← files.write target compiled with
          | .error error => return .unwritable target error
          | .ok _ => return ⟨0, s!"Wrote {target}\n", []⟩

def compileFiles {m : Type → Type} [Monad m] (files : FileAccess m) : List String → m Ending
  | [path] => compileFile files path
  | _ => return .wrongCount

def interactText (fuel : Nat) (input : String) : Option Ending := do
  let console ← (Console.fresh.print Console.welcome).interact fuel (Text.lines input)
  return ⟨0, (console.print Console.farewell).output, console.notices⟩

/-- Carries out a command on files, with the given input. -/
def carryOut {m : Type → Type} [Monad m] (fuel : Nat) (files : FileAccess m) (input : String) :
    Command → m (Option Ending)
  | .session => return interactText fuel input
  | .run path => runFile fuel files path
  | .compile paths => some <$> compileFiles files paths

end Command

end SmallScheme
