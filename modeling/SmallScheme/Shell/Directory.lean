/-
This file gives a directory that holds files and no other directories.
-/

import SmallScheme.Shell.FileAccess
import SmallScheme.Shell.Path

namespace SmallScheme

structure Directory where
  files : List (String × String)

/-- Where a path leads: the directory, one that is not inside it, or a name in the directory. -/
inductive Place where
  | inside
  | outside
  | entry (name : String)
  deriving DecidableEq, Repr

namespace Directory

def contents? (directory : Directory) (name : String) : Option String :=
  directory.files.lookup name

/-- What stands in the way of going on from a name. -/
def obstacle (directory : Directory) (name : String) : FileError :=
  if (directory.contents? name).isSome then .notDirectory else .missing

/-- Goes on from a place by one component of a path. No name outside the directory is in use. -/
def step (directory : Directory) : Place → Path.Component → Except FileError Place
  | .entry name, _ => .error (directory.obstacle name)
  | place, .stay => .ok place
  | _, .parent => .ok .outside
  | place, .name name =>
      if Path.nameLimit < name.utf8ByteSize then .error .nameTooLong
      else if place = .inside then .ok (.entry name)
      else .error .missing

/-- Where a path starts. A slash in front leads to the outermost directory. -/
def start (path : String) : Place :=
  if Path.isAbsolute path then .outside else .inside

def locate (directory : Directory) (path : String) : Except FileError Place :=
  if path = "" then .error .missing
  else if Path.lengthLimit < path.utf8ByteSize then .error .nameTooLong
  else (Path.components path).foldlM directory.step (start path)

/-- The name that a path gives to a file of the directory. -/
def fileAt (directory : Directory) (path : String) : Except FileError String := do
  match ← directory.locate path with
  | .entry name => return name
  | _ => throw .isDirectory

def read (directory : Directory) (path : String) : Except FileError String := do
  match directory.contents? (← directory.fileAt path) with
  | some contents => return contents
  | none => throw .missing

def insert (directory : Directory) (name contents : String) : Directory :=
  ⟨directory.files.filter (·.1 != name) ++ [(name, contents)]⟩

def write (directory : Directory) (path contents : String) : Except FileError Directory := do
  return directory.insert (← directory.fileAt path) contents

/-- The files that are new or hold other contents than before. -/
def changedSince (after before : Directory) : List (String × String) :=
  after.files.filter fun file => before.contents? file.1 != some file.2

/-- A write that fails leaves the directory as it is. -/
def access : FileAccess (StateM Directory) where
  read path directory := (directory.read path, directory)
  write path contents directory :=
    match directory.write path contents with
    | .error error => (.error error, directory)
    | .ok after => (.ok (), after)

end Directory

end SmallScheme
