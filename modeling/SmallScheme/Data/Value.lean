/-
This file gives the values that compiled programs compute with, and the kinds of their globals.
-/

import SmallScheme.Data.Datum

namespace SmallScheme

/-- A quoted identifier is a string. -/
inductive Value where
  | integer (value : Int)
  | character (value : Char)
  | string (content : String)
  | boolean (value : Bool)
  | list (elements : List Value)
  | vector (elements : List Value)
  | quotation (quoted : Value)
  | void

namespace Value

mutual

def ofDatum : Datum → Value
  | .integer value => .integer value
  | .character value => .character value
  | .string content => .string content
  | .symbol name => .string name
  | .boolean value => .boolean value
  | .list elements => .list (allOfDatum elements)
  | .vector elements => .vector (allOfDatum elements)
  | .quotation quoted => .quotation (ofDatum quoted)
  | .void => .void

def allOfDatum : List Datum → List Value
  | [] => []
  | datum :: rest => ofDatum datum :: allOfDatum rest

end

mutual

/-- The text that `display` shows, with strings written without their quotes. -/
def shown : Value → String
  | .integer value => Text.Decimal.text value
  | .character value => Character.text value
  | .string content => content
  | .boolean value => if value then "#t" else "#f"
  | .list elements => "(" ++ " ".intercalate (allShown elements) ++ ")"
  | .vector elements => "#(" ++ " ".intercalate (allShown elements) ++ ")"
  | .quotation quoted => "'" ++ quoted.shown
  | .void => ""

def allShown : List Value → List String
  | [] => []
  | value :: rest => value.shown :: allShown rest

end

mutual

def same : Value → Value → Bool
  | .integer left, .integer right => left == right
  | .character left, .character right => left == right
  | .string left, .string right => left == right
  | .boolean left, .boolean right => left == right
  | .list left, .list right => allSame left right
  | .vector left, .vector right => allSame left right
  | .quotation left, .quotation right => same left right
  | .void, .void => true
  | _, _ => false

def allSame : List Value → List Value → Bool
  | [], [] => true
  | left :: lefts, right :: rights => same left right && allSame lefts rights
  | _, _ => false

end

/-- Only the boolean `#f` is false. -/
def isTrue : Value → Bool
  | .boolean value => value
  | _ => true

def integer? : Value → Option Int
  | .integer value => some value
  | _ => none

/-- The integer that a compiled constant carries as text. -/
def ofDigits (text : String) : Except RunError Value :=
  match Text.Decimal.read? text.toList with
  | some value => .ok (.integer value)
  | none => .error (.wrongArgumentType "integer")

end Value

/-- The declared type of a global. A computed global admits every value. -/
inductive Kind where
  | integer
  | character
  | string
  | boolean
  | computed
  deriving DecidableEq, Repr

namespace Kind

def describe : Kind → String
  | .integer => "integer"
  | .character => "character"
  | .string => "string"
  | .boolean => "boolean"
  | .computed => "computed"

def admits : Kind → Value → Bool
  | .computed, _ => true
  | .integer, .integer _ => true
  | .character, .character _ => true
  | .string, .string _ => true
  | .boolean, .boolean _ => true
  | _, _ => false

def all : List Kind :=
  [.integer, .character, .string, .boolean, .computed]

end Kind

end SmallScheme
