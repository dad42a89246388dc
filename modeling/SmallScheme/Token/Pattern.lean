/-
This file gives regular patterns over characters and the longest prefix that a pattern matches.
-/

namespace SmallScheme

inductive Pattern where
  | nothing
  | empty
  | char (accepts : Char → Bool)
  | seq (first second : Pattern)
  | alt (left right : Pattern)
  | star (body : Pattern)

namespace Pattern

/-- The texts of a pattern. -/
inductive Matches : Pattern → List Char → Prop where
  | empty : Matches .empty []
  | char {accepts : Char → Bool} {c : Char} (accepted : accepts c = true) :
      Matches (.char accepts) [c]
  | seq {first second : Pattern} {left right : List Char}
      (matchesFirst : Matches first left) (matchesSecond : Matches second right) :
      Matches (.seq first second) (left ++ right)
  | altLeft {left right : Pattern} {text : List Char} (matchesLeft : Matches left text) :
      Matches (.alt left right) text
  | altRight {left right : Pattern} {text : List Char} (matchesRight : Matches right text) :
      Matches (.alt left right) text
  | starNil {body : Pattern} : Matches (.star body) []
  | starAppend {body : Pattern} {left right : List Char}
      (matchesBody : Matches body left) (matchesStar : Matches (.star body) right) :
      Matches (.star body) (left ++ right)

def plus (body : Pattern) : Pattern :=
  .seq body (.star body)

def optional (body : Pattern) : Pattern :=
  .alt .empty body

/-- A fixed text matches one accepting class after another. -/
def sequence (classes : List (Char → Bool)) : Pattern :=
  classes.foldr (fun accepts rest => .seq (.char accepts) rest) .empty

def oneOf (patterns : List Pattern) : Pattern :=
  patterns.foldr .alt .nothing

def nullable : Pattern → Bool
  | .nothing => false
  | .empty => true
  | .char _ => false
  | .seq first second => first.nullable && second.nullable
  | .alt left right => left.nullable || right.nullable
  | .star _ => true

/-- This is `seq` with the trivial first patterns removed. -/
def join : Pattern → Pattern → Pattern
  | .nothing, _ => .nothing
  | .empty, second => second
  | first, second => .seq first second

/-- This is `alt` with the pattern that matches no text removed. -/
def either : Pattern → Pattern → Pattern
  | .nothing, right => right
  | left, .nothing => left
  | left, right => .alt left right

/-- The derivative matches what may follow the character. -/
def derive (c : Char) : Pattern → Pattern
  | .nothing => .nothing
  | .empty => .nothing
  | .char accepts => if accepts c then .empty else .nothing
  | .seq first second =>
      if first.nullable then either (join (derive c first) second) (derive c second)
      else join (derive c first) second
  | .alt left right => either (derive c left) (derive c right)
  | .star body => join (derive c body) (.star body)

/-- The length of the longest prefix that the pattern matches. -/
def longest : Pattern → List Char → Option Nat
  | .nothing, _ => none
  | pattern, [] => if pattern.nullable then some 0 else none
  | pattern, c :: rest =>
      match longest (pattern.derive c) rest with
      | some length => some (length + 1)
      | none => if pattern.nullable then some 0 else none

end Pattern

end SmallScheme
