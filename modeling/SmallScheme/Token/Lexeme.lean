/-
This file divides a source into lexemes by longest match.
-/

import SmallScheme.Token.Basic

namespace SmallScheme

/-- A span counts bytes of the UTF-8 text and excludes its end. -/
structure Span where
  start : Nat
  stop : Nat
  deriving DecidableEq, Repr

structure Lexeme where
  token : Except LexError Token
  text : String
  span : Span

namespace Lexeme

def byteLength (text : List Char) : Nat :=
  text.foldr (fun c length => c.utf8Size + length) 0

/-- The longer of two matches wins, and the earlier of two equally long ones. -/
def longer (best : Option (Token.Kind × Nat)) (kind : Token.Kind) (length : Nat) :
    Option (Token.Kind × Nat) :=
  match best with
  | some (_, bestLength) => if bestLength < length then some (kind, length) else best
  | none => some (kind, length)

/-- The kind with the longest match, and how many characters the match takes after the first. -/
def longestMatch (first : Char) (rest : List Char) : Option (Token.Kind × Nat) :=
  Token.Kind.all.foldl
    (fun best kind =>
      match (kind.pattern.derive first).longest rest with
      | some length => longer best kind length
      | none => best)
    none

/-- How many characters an invalid lexeme takes after its first. An open string runs to the
backslash that no string can hold, or to the end. -/
def invalidLength (first : Char) (rest : List Char) : Nat :=
  if first == '\x22' then (rest.takeWhile (· != '\\')).length else 0

/-- The token at the start of a text, and how many characters it takes after the first. -/
def scan (first : Char) (rest : List Char) : Except LexError Token × Nat :=
  match longestMatch first rest with
  | some (kind, length) => (kind.read (first :: rest.take length), length)
  | none => (.error .invalid, invalidLength first rest)

def ofChars (start : Nat) : List Char → List Lexeme
  | [] => []
  | first :: rest =>
      let (token, length) := scan first rest
      let text := first :: rest.take length
      let stop := start + byteLength text
      ⟨token, String.ofList text, ⟨start, stop⟩⟩ :: ofChars stop (rest.drop length)
termination_by chars => chars.length
decreasing_by simp only [List.length_drop, List.length_cons]; omega

end Lexeme

def lexemes (source : String) : List Lexeme :=
  Lexeme.ofChars 0 source.toList

/-- The first token of a text on its own. -/
def Token.ofText? (text : String) : Option Token :=
  match lexemes text with
  | ⟨.ok token, _, _⟩ :: _ => some token
  | _ => none

end SmallScheme
