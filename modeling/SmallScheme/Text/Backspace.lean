/-
This file carries out the backspaces in a line.
-/

import SmallScheme.Text.Grapheme

namespace SmallScheme.Text

/-- What is left of a line so far, and the sizes of its clusters in bytes, the last ones first. -/
structure Typed where
  text : List Char
  sizes : List Nat
  deriving DecidableEq, Repr

namespace Typed

def empty : Typed :=
  ⟨[], []⟩

/-- Sizes are counted up to this number and then from zero again. -/
def sizeLimit : Nat :=
  256

def size (cluster : List Char) : Nat :=
  (String.ofList cluster).utf8ByteSize % sizeLimit

/-- Drops as many characters as a number of bytes takes. -/
def dropBytes : Nat → List Char → List Char
  | 0, text => text
  | _, [] => []
  | count + 1, c :: rest => dropBytes (count + 1 - c.utf8Size) rest

/-- A backspace erases the last cluster, if there is one. -/
def press (typed : Typed) (cluster : List Char) : Typed :=
  if cluster = ['\x08'] then
    match typed.sizes with
    | [] => typed
    | last :: sizes => ⟨dropBytes last typed.text, sizes⟩
  else ⟨cluster.reverse ++ typed.text, size cluster :: typed.sizes⟩

end Typed

def applyBackspaces (line : String) : String :=
  String.ofList ((clusters line.toList).foldl Typed.press .empty).text.reverse

end SmallScheme.Text
