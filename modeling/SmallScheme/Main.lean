/-
This file is the command line.
-/

import SmallScheme.Shell.Command

namespace SmallScheme.CommandLine

/-- The nesting depth of evaluation, which the memory of the process bounds long before. -/
def fuel : Nat :=
  1000000000000

def showNotices (notices : List Notice) : IO Unit := do
  let stderr ← IO.getStderr
  for notice in notices do
    stderr.putStr notice.text

def showEnding (ending : Ending) : IO UInt32 := do
  (← IO.getStdout).putStr ending.output
  showNotices ending.notices
  return ending.exitCode.toUInt32

/-- Some calls of the system negate the number of an error. -/
def isCode (code : UInt32) (number : UInt32) : Bool :=
  code == number || code == 0 - number

def fileError : IO.Error → FileError
  | .noFileOrDirectory _ _ _ => .missing
  | .inappropriateType _ code description =>
      if isCode code 20 then .notDirectory
      else if isCode code 21 then .isDirectory
      else .other description
  | .invalidArgument _ code description =>
      if isCode code 36 then .nameTooLong else .other description
  | error => .other error.toString

def attempt {A : Type} (action : IO A) : IO (Except FileError A) := do
  try
    return .ok (← action)
  catch error =>
    return .error (fileError error)

def decode (bytes : ByteArray) : Except FileError String :=
  match String.fromUTF8? bytes with
  | some text => .ok text
  | none => .error .notText

/-- The files of the system. -/
def files : FileAccess IO where
  read path := do return (← attempt (IO.FS.readBinFile path)) >>= decode
  write path contents := attempt (IO.FS.writeFile path contents)

/-- A line without its end. -/
def withoutEnd (line : String) : String :=
  (Text.lines line).headD ""

/-- The next line that asks for an evaluation. -/
def nextSource : IO (Option String) := do
  let line ← (← IO.getStdin).getLine
  return if line.isEmpty then none else Console.entered? (withoutEnd line)

partial def interact (console : Console) : IO Unit := do
  let stdout ← IO.getStdout
  match ← nextSource with
  | none => stdout.putStrLn Console.farewell
  | some source =>
      match console.evaluate fuel "repl" source with
      | none => throw (IO.userError "evaluation nests too deeply")
      | some (_, after) =>
          stdout.putStr after.output
          stdout.flush
          showNotices after.notices
          interact after.cleared

def finished : Option Ending → IO UInt32
  | some ending => showEnding ending
  | none => throw (IO.userError "evaluation nests too deeply")

def perform : Command → IO UInt32
  | .session => do
      IO.println Console.welcome
      interact .fresh
      return 0
  | .run path => do finished (← Command.runFile fuel files path)
  | .compile paths => do showEnding (← Command.compileFiles files paths)

end SmallScheme.CommandLine

def main (arguments : List String) : IO UInt32 := do
  match SmallScheme.Command.ofArguments? arguments with
  | some command => SmallScheme.CommandLine.perform command
  | none =>
      IO.eprintln "Usage: [compile SOURCE | run SOURCE]"
      return 2
