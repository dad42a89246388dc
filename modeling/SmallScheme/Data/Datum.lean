/-
This file gives the data that a session computes with.
-/

import SmallScheme.Data.Character
import SmallScheme.Program.Basic
import SmallScheme.Text.Decimal

namespace SmallScheme

/-- A symbol is a string that prints without quotes. -/
inductive Datum where
  | integer (value : Int)
  | character (value : Char)
  | string (content : String)
  | symbol (name : String)
  | boolean (value : Bool)
  | list (elements : List Datum)
  | vector (elements : List Datum)
  | quotation (quoted : Datum)
  | void

namespace Datum

def booleanText (value : Bool) : String :=
  if value then "#t" else "#f"

mutual

/-- The text that reads back as the datum, as far as its strings allow. -/
def text : Datum → String
  | .integer value => Text.Decimal.text value
  | .character value => Character.text value
  | .string content => "\"" ++ content ++ "\""
  | .symbol name => name
  | .boolean value => booleanText value
  | .list elements => "(" ++ " ".intercalate (texts elements) ++ ")"
  | .vector elements => "#(" ++ " ".intercalate (texts elements) ++ ")"
  | .quotation quoted => "'" ++ quoted.text
  | .void => ""

def texts : List Datum → List String
  | [] => []
  | datum :: rest => datum.text :: texts rest

end

/-- Only the boolean `#f` is false. -/
def isTrue : Datum → Bool
  | .boolean value => value
  | _ => true

def integer? : Datum → Option Int
  | .integer value => some value
  | _ => none

def elements? : Datum → Option (List Datum)
  | .list elements => some elements
  | _ => none

/-- The characters of a string or a symbol. -/
def content? : Datum → Option String
  | .string content => some content
  | .symbol name => some name
  | _ => none

mutual

/-- Structural equality. A symbol equals the string of its name. -/
def equal : Datum → Datum → Bool
  | .integer left, .integer right => left == right
  | .character left, .character right => left == right
  | .boolean left, .boolean right => left == right
  | .list left, .list right => allEqual left right
  | .vector left, .vector right => allEqual left right
  | .quotation left, .quotation right => equal left right
  | .void, .void => true
  | .string left, right => right.content? == some left
  | .symbol left, right => right.content? == some left
  | _, _ => false

def allEqual : List Datum → List Datum → Bool
  | [], [] => true
  | left :: lefts, right :: rights => equal left right && allEqual lefts rights
  | _, _ => false

end

def ofLiteral : Literal → Except RunError Datum
  | .integer value => .ok (.integer value)
  | .character name => return .character (← Character.ofName name)
  | .string content => .ok (.string content)
  | .boolean value => .ok (.boolean value)

mutual

def ofQuoted : Quoted → Except RunError Datum
  | .constant literal => ofLiteral literal
  | .symbol name => .ok (.symbol name)
  | .list elements => return .list (← allOfQuoted elements)
  | .vector elements => return .vector (← allOfQuoted elements)
  | .quotation quoted => return .quotation (← ofQuoted quoted)

def allOfQuoted : List Quoted → Except RunError (List Datum)
  | [] => return []
  | quoted :: rest => return (← ofQuoted quoted) :: (← allOfQuoted rest)

end

/-- The first element of a list. -/
def car : List Datum → Except RunError Datum
  | [] => .error (.wrongArgumentType "pair")
  | first :: _ => .ok first

/-- The elements of a list after the first. -/
def cdr : List Datum → Except RunError (List Datum)
  | [] => .error (.wrongArgumentType "pair")
  | _ :: rest => .ok rest

end Datum

end SmallScheme
