/-
This file gives the local names that are visible inside a compiled function.
-/

import SmallScheme.Code.Basic

namespace SmallScheme

/-- The bindings come in the order in which they were made. -/
structure Scope where
  bindings : List (String × Code.Place)

namespace Scope

def empty : Scope :=
  ⟨[]⟩

/-- Every parameter is held by a variable of its own name. -/
def parameters (params : List String) : Scope :=
  ⟨params.map fun param => (param, .held param)⟩

/-- Every parameter is a slot of the working array of a loop. -/
def slots (params : List String) : Scope :=
  ⟨params.mapIdx fun index param => (param, .slot index)⟩

def bind (scope : Scope) (name : String) : Scope :=
  ⟨scope.bindings ++ [(name, .held name)]⟩

/-- The latest binding of a name counts. -/
def lookup (scope : Scope) (name : String) : Option Code.Place :=
  scope.bindings.reverse.lookup name

/-- Every visible name once, by its first binding. -/
def visible (scope : Scope) : List String :=
  (scope.bindings.map Prod.fst).eraseDups

end Scope

end SmallScheme
