/-
This file gives the frames in which compiled procedures publish names for their callees.
-/

import SmallScheme.Data.Value

namespace SmallScheme

/-- The innermost frame comes first. -/
structure Frames where
  stack : List (List (String × Value))

namespace Frames

def empty : Frames :=
  ⟨[]⟩

def depth (frames : Frames) : Nat :=
  frames.stack.length

/-- A new frame is known by its depth, which counts from one. -/
def enter (frames : Frames) : Nat × Frames :=
  (frames.depth + 1, ⟨[] :: frames.stack⟩)

/-- A binding replaces an earlier one of the same name in its place. -/
def bindIn (name : String) (value : Value) : List (String × Value) → List (String × Value)
  | [] => [(name, value)]
  | (bound, old) :: rest =>
      if bound = name then (bound, value) :: rest else (bound, old) :: bindIn name value rest

/-- A frame that is gone takes no binding. -/
def bind (frames : Frames) (frame : Nat) (name : String) (value : Value) : Frames :=
  if frame ≤ frames.depth then
    ⟨frames.stack.modify (frames.depth - frame) (bindIn name value)⟩
  else frames

/-- Leaving a frame also drops the frames inside it. -/
def leave (frames : Frames) (frame : Nat) : Frames :=
  ⟨frames.stack.drop (frames.depth + 1 - frame)⟩

/-- A frame that is left after it was entered leaves no trace. -/
theorem leave_enter (frames : Frames) : frames.enter.2.leave frames.enter.1 = frames := by
  simp [enter, leave, depth]

/-- The innermost frame that binds the name wins. -/
def find? (frames : Frames) (name : String) : Option Value :=
  frames.stack.findSome? (·.lookup name)

end Frames

end SmallScheme
