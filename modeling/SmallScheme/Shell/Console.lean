/-
This file evaluates sources for a reader: values go to the output and errors become notices.
-/

import SmallScheme.Session.Evaluate
import SmallScheme.Text.Backspace
import SmallScheme.Text.Blank

namespace SmallScheme

/-- A message for the error output. A report shows where a source is malformed. -/
inductive Notice where
  | plain (text : String)
  | highlighted (text : String)
  | report (name source : String) (errors : List ParseError)

namespace Notice

/-- Highlighted text is red on a terminal. -/
def highlight (text : String) : String :=
  "\x1b[31m" ++ text ++ "\x1b[0m"

def reportLine (name : String) (error : ParseError) : String :=
  s!"{name}:{error.span.start}-{error.span.stop}: {highlight error.message}\n"

def text : Notice → String
  | .plain text => text ++ "\n"
  | .highlighted text => highlight text ++ "\n"
  | .report name _ errors => String.join (errors.map (reportLine name))

def ofSyntaxError (name source : String) : SyntaxError → Notice
  | .parse errors => .report name source errors
  | error => .highlighted error.message

end Notice

/-- A session that writes to the output, with the notices so far. -/
structure Console where
  session : Session
  notices : List Notice

namespace Console

def fresh : Console :=
  ⟨.fresh .unlimited, []⟩

def output (console : Console) : String :=
  console.session.sink.text

def withOutput (console : Console) (text : String) : Console :=
  { console with
    session := { console.session with sink := { console.session.sink with text := text } } }

def print (console : Console) (line : String) : Console :=
  console.withOutput (console.output ++ line ++ "\n")

def notify (console : Console) (notice : Notice) : Console :=
  { console with notices := console.notices ++ [notice] }

/-- Forgets the output and the notices that a reader has seen. -/
def cleared (console : Console) : Console :=
  { console.withOutput "" with notices := [] }

/-- Values without a text are not printed. -/
def printValues (console : Console) (values : List Datum) : Console :=
  let text := " ".intercalate ((values.map Datum.text).filter (· != ""))
  if text = "" then console else console.print text

def inSession (console : Console) (session : Session) : Console :=
  { console with session := session }

/-- Whether every form of the source succeeded. -/
def evaluate (fuel : Nat) (name source : String) (console : Console) : Option (Bool × Console) :=
  match Program.ofSource source with
  | .error error => some (false, console.notify (.ofSyntaxError name source error))
  | .ok program =>
      match Session.executeAll fuel program.forms ⟨console.session, []⟩ with
      | .ok _ transcript =>
          some (true, (console.inSession transcript.session).printValues transcript.values)
      | .error error transcript =>
          some (false,
            ((console.inSession transcript.session).printValues transcript.values).notify
              (.highlighted error.message))
      | .outOfFuel => none

def isExit (line : String) : Bool :=
  Text.equalIgnoringCase (Text.trim line) "exit"

def welcome : String :=
  "Welcome to ByteScheme. Enter \"exit\" to quit."

def farewell : String :=
  "Bye!"

/-- What a reader enters by a line, or nothing if the line asks for the exit. -/
def entered? (line : String) : Option String :=
  let source := Text.applyBackspaces line
  if isExit source then none else some source

/-- Evaluates one line after the other until one asks for the exit. -/
def interact (fuel : Nat) : List String → Console → Option Console
  | [], console => some console
  | line :: rest, console =>
      match entered? line with
      | none => some console
      | some source => do
          let (_, after) ← console.evaluate fuel "repl" source
          interact fuel rest after

end Console

end SmallScheme
