/-
This file writes string and character literals of generated code.
-/

import SmallScheme.Text.Unprintable

namespace SmallScheme.Text

def hexadecimal (value : Nat) : List Char :=
  Nat.toDigits 16 value

/-- The characters of a literal that its closing quote and its line cannot disturb. -/
def escapeChar (quote : Char) (c : Char) : List Char :=
  if c = '\x00' then ['\\', '0']
  else if c = '\t' then ['\\', 't']
  else if c = '\r' then ['\\', 'r']
  else if c = '\n' then ['\\', 'n']
  else if c = '\\' then ['\\', '\\']
  else if c = quote then ['\\', c]
  else if isUnprintable c then ['\\', 'u', '\x7b'] ++ hexadecimal c.toNat ++ ['\x7d']
  else [c]

def quoteString (content : String) : String :=
  String.ofList (['\x22'] ++ content.toList.flatMap (escapeChar '\x22') ++ ['\x22'])

def quoteChar (character : Char) : String :=
  String.ofList (['\x27'] ++ escapeChar '\x27' character ++ ['\x27'])

end SmallScheme.Text
