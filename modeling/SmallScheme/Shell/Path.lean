/-
This file takes file paths apart.
-/

namespace SmallScheme.Path

/-- One step of a path. -/
inductive Component where
  | stay
  | parent
  | name (text : String)
  deriving DecidableEq, Repr

/-- Nothing and a dot between slashes stay where they are, and two dots lead to the parent. -/
def Component.ofChars : List Char → Component
  | [] => .stay
  | ['.'] => .stay
  | ['.', '.'] => .parent
  | text => .name (String.ofList text)

def components (path : String) : List Component :=
  (path.toList.splitOn '/').map Component.ofChars

def isAbsolute (path : String) : Bool :=
  path.toList.head? == some '/'

/-- The most bytes that a name may have. -/
def nameLimit : Nat :=
  255

/-- The most bytes that a path may have. -/
def lengthLimit : Nat :=
  4095

/-- The path without the slashes and dots at its end. -/
def dropEnd : List Char → List Char
  | '/' :: rest => dropEnd rest
  | '.' :: '/' :: rest => dropEnd rest
  | reversed => reversed

/-- The text before the last name, and the last name. -/
def split (path : String) : List Char × List Char :=
  let reversed := dropEnd path.toList.reverse
  ((reversed.dropWhile (· != '/')).reverse, (reversed.takeWhile (· != '/')).reverse)

/-- The parent directory and the directory itself are no file names. -/
def isFileName (name : List Char) : Bool :=
  name != [] && name != ['.'] && name != ['.', '.']

def fileName? (path : String) : Option String :=
  let (_, name) := split path
  if isFileName name then some (String.ofList name) else none

/-- The name before its last dot. A dot at the start counts as a letter. -/
def stem (name : List Char) : List Char :=
  match name.reverse.dropWhile (· != '.') with
  | [] => name
  | [_] => name
  | _ :: reversed => reversed.reverse

/--
Replaces what follows the last dot of the file name, or adds an extension to it.
A name of which only two dots are left is the parent directory and takes no extension.
-/
def withExtension (path extension : String) : String :=
  let (directory, name) := split path
  if isFileName name then
    let shortened := stem name ++ ['.']
    if isFileName shortened then String.ofList (directory ++ shortened ++ extension.toList)
    else String.ofList (directory ++ shortened)
  else path

end SmallScheme.Path
