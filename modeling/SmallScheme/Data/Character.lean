/-
This file reads and writes the names of characters.
-/

import SmallScheme.RunError

namespace SmallScheme.Character

/-- A single character names itself, and two characters have names of their own. -/
def ofName (name : String) : Except RunError Char :=
  match name.toList with
  | [character] => .ok character
  | _ =>
      if name = "newline" then .ok '\n'
      else if name = "space" then .ok ' '
      else .error (.characterLiteral s!"#\\{name}")

def text (character : Char) : String :=
  if character = '\n' then "#\\newline"
  else if character = ' ' then "#\\space"
  else "#\\" ++ String.singleton character

end SmallScheme.Character
