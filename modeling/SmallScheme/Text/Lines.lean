/-
This file splits a text into lines and indents it.
-/

namespace SmallScheme.Text

/-- A line ends at a newline, which may follow a carriage return. The last line needs no end. -/
def splitLines : List Char → List (List Char)
  | [] => []
  | '\n' :: rest => [] :: splitLines rest
  | '\r' :: '\n' :: rest => [] :: splitLines rest
  | c :: rest =>
      match splitLines rest with
      | [] => [[c]]
      | line :: lines => (c :: line) :: lines

def lines (text : String) : List String :=
  (splitLines text.toList).map String.ofList

def indentLine (line : String) : String :=
  "    " ++ line

def indent (text : String) : String :=
  "\n".intercalate ((lines text).map indentLine)

/-- The text in which every line has its end. -/
def unlines (lines : List String) : String :=
  String.join (lines.map (· ++ "\n"))

end SmallScheme.Text
