/-
This file gives the sink that takes the output of a session.
-/

import SmallScheme.Run

namespace SmallScheme

/-- Why a sink refuses a piece, and how many of its characters it has taken by then. -/
structure Refusal where
  reason : String
  taken : Nat

/-- The policy sees the number of earlier attempts, the text taken so far and the new piece, and
says whether it refuses the piece. -/
structure Sink where
  refuses : Nat → String → String → Option Refusal
  attempts : Nat
  text : String

namespace Sink

def unlimited : Sink :=
  ⟨fun _ _ _ => none, 0, ""⟩

/-- A bounded sink takes a piece as a whole or refuses it. -/
def bounded (limit : Nat) : Sink :=
  ⟨fun _ text piece =>
    if limit < text.utf8ByteSize + piece.utf8ByteSize then some ⟨"sink full", 0⟩ else none, 0, ""⟩

def write (piece : String) : Run Sink Unit :=
  fun sink =>
    match sink.refuses sink.attempts sink.text piece with
    | some ⟨reason, taken⟩ =>
        .error (.output reason)
          { sink with
            attempts := sink.attempts + 1
            text := sink.text ++ String.ofList (piece.toList.take taken) }
    | none => .ok () { sink with attempts := sink.attempts + 1, text := sink.text ++ piece }

/-- The text and the line end are two pieces, and an empty text is no piece. -/
def writeLine (text : String) : Run Sink Unit := do
  if text ≠ "" then write text
  write "\n"

end Sink

end SmallScheme
