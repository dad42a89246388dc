/-
This file writes integers in decimal and reads them back.
-/

namespace SmallScheme.Text.Decimal

def digits (value : Nat) : List Char :=
  Nat.toDigits 10 value

/-- A negative integer starts with a minus sign and no other integer has a sign. -/
def chars : Int → List Char
  | .ofNat value => digits value
  | .negSucc value => '-' :: digits (value + 1)

def text (value : Int) : String :=
  String.ofList (chars value)

def digitValue (digit : Char) : Nat :=
  digit.toNat - '0'.toNat

/-- Underscores between and after the digits do not count. -/
def magnitude (digits : List Char) : Nat :=
  (digits.filter Char.isDigit).foldl (fun value digit => 10 * value + digitValue digit) 0

/-- A magnitude starts with a digit and goes on with digits and underscores. -/
def readMagnitude? : List Char → Option Nat
  | [] => none
  | first :: rest =>
      if first.isDigit && rest.all (fun char => char.isDigit || char == '_') then
        some (magnitude (first :: rest))
      else none

/-- An integer is a magnitude with at most one sign before it. -/
def read? : List Char → Option Int
  | '+' :: rest => (readMagnitude? rest).map Int.ofNat
  | '-' :: rest => (readMagnitude? rest).map fun value => -Int.ofNat value
  | chars => (readMagnitude? chars).map Int.ofNat

end SmallScheme.Text.Decimal
