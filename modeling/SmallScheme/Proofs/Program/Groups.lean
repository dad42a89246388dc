/-
This file takes the groups of a program apart, and shows that the compiler and a session treat a group
as the forms in it, one after the other.
-/

import SmallScheme.Compiler.Generate
import SmallScheme.Session.Evaluate

namespace SmallScheme

namespace Form

/-- Whether the form is a group. -/
def isGroup : Form → Bool
  | .begin _ => true
  | _ => false

mutual

/-- The forms that are no groups, in source order. -/
def leaves : Form → List Form
  | .expression value => [.expression value]
  | .definition made => [.definition made]
  | .begin forms => allLeaves forms

/-- The forms of some forms that are no groups, in source order. -/
def allLeaves : List Form → List Form
  | [] => []
  | form :: rest => form.leaves ++ allLeaves rest

end

mutual

/-- No leaf of a form is a group. -/
theorem isGroup_of_mem_leaves {form leaf : Form} (member : leaf ∈ form.leaves) :
    leaf.isGroup = false := by
  cases form with
  | expression value =>
      rw [List.mem_singleton.mp member]
      rfl
  | definition made =>
      rw [List.mem_singleton.mp member]
      rfl
  | begin forms => exact isGroup_of_mem_allLeaves member

/-- No leaf of some forms is a group. -/
theorem isGroup_of_mem_allLeaves {forms : List Form} {leaf : Form}
    (member : leaf ∈ allLeaves forms) : leaf.isGroup = false := by
  cases forms with
  | nil => cases member
  | cons form rest =>
      rcases List.mem_append.mp member with here | later
      · exact isGroup_of_mem_leaves here
      · exact isGroup_of_mem_allLeaves later

end

/-- A traversal that joins what it makes of the forms one after the other, and of a group what it makes
of the forms in it. -/
structure Sequential {M : Type} (nothing : M) (join : M → M → M) (one : Form → M)
    (all : List Form → M) : Prop where
  nothing_join : ∀ part, join nothing part = part
  join_nothing : ∀ part, join part nothing = part
  join_assoc : ∀ first second third,
    join (join first second) third = join first (join second third)
  nil : all [] = nothing
  cons : ∀ form rest, all (form :: rest) = join (one form) (all rest)
  group : ∀ forms, one (.begin forms) = all forms

namespace Sequential

variable {M : Type} {nothing : M} {join : M → M → M} {one : Form → M} {all : List Form → M}

/-- What is made of two lists of forms is joined. -/
theorem append (traversal : Sequential nothing join one all) (first second : List Form) :
    all (first ++ second) = join (all first) (all second) := by
  induction first with
  | nil => rw [List.nil_append, traversal.nil, traversal.nothing_join]
  | cons form rest ih =>
      rw [List.cons_append, traversal.cons, ih, traversal.cons, traversal.join_assoc]

/-- What is made of a list of one form is made of the form. -/
theorem singleton (traversal : Sequential nothing join one all) (form : Form) :
    all [form] = one form := by
  rw [traversal.cons, traversal.nil, traversal.join_nothing]

mutual

/-- A form and its leaves are traversed alike. -/
theorem leaves (traversal : Sequential nothing join one all) (form : Form) :
    all form.leaves = one form := by
  cases form with
  | expression value => exact traversal.singleton _
  | definition made => exact traversal.singleton _
  | begin forms => exact (traversal.allLeaves forms).trans (traversal.group forms).symm

/-- Forms and their leaves are traversed alike. -/
theorem allLeaves (traversal : Sequential nothing join one all) (forms : List Form) :
    all (Form.allLeaves forms) = all forms := by
  cases forms with
  | nil => rfl
  | cons form rest =>
      rw [Form.allLeaves, traversal.append, traversal.leaves form, traversal.allLeaves rest,
        traversal.cons]

end

end Sequential

/-- Definitions are collected one form after the other. -/
theorem sequential_definitions : Sequential [] (· ++ ·) definitions allDefinitions where
  nothing_join := List.nil_append
  join_nothing := List.append_nil
  join_assoc := List.append_assoc
  nil := rfl
  cons _ _ := rfl
  group _ := rfl

end Form

/-- The program with every group replaced by its forms. -/
def Program.flatten (program : Program) : Program :=
  ⟨Form.allLeaves program.forms⟩

namespace Compiler

/-- The compiler generates code for one form after the other. -/
theorem sequential_forms (analysis : Analysis) :
    Form.Sequential (pure ()) (fun first second => first >>= fun _ => second) (form analysis)
      (forms analysis) where
  nothing_join _ := rfl
  join_nothing := bind_pure
  join_assoc first second third := bind_assoc first (fun _ => second) fun _ => third
  nil := rfl
  cons _ _ := rfl
  group _ := rfl

/-- The analysis of a program does not see its groups. -/
theorem analysis_flatten (program : Program) :
    Analysis.ofProgram program.flatten = Analysis.ofProgram program := by
  have same : program.flatten.definitions = program.definitions :=
    Form.sequential_definitions.allLeaves program.forms
  simp only [Analysis.ofProgram, Program.procedures, same]

/-- A program without its groups compiles to the same code or the same error. -/
theorem compile_flatten (program : Program) : compile program.flatten = compile program := by
  unfold compile
  rw [analysis_flatten, Program.flatten, (sequential_forms _).allLeaves]

end Compiler

namespace Session

/-- A session executes one form after the other. -/
theorem sequential_execute (fuel : Nat) :
    Form.Sequential (pure ()) (fun first second => first >>= fun _ => second) (execute fuel)
      (executeAll fuel) where
  nothing_join _ := rfl
  join_nothing := Run.bind_pure
  join_assoc first second third := Run.bind_assoc first (fun _ => second) fun _ => third
  nil := rfl
  cons _ _ := rfl
  group _ := rfl

/-- A program without its groups runs alike. -/
theorem run_flatten (fuel : Nat) (program : Program) :
    run fuel program.flatten = run fuel program := by
  funext session
  unfold run
  rw [Program.flatten, (sequential_execute fuel).allLeaves]

end Session

/-- A program without its groups compiles to the same code or the same error, and in every session it
gives the same values, the same output, the same bindings and the same error. -/
theorem Program.groups_are_transparent (program : Program) :
    program.flatten.forms.any Form.isGroup = false ∧
      Compiler.compile program.flatten = Compiler.compile program ∧
      ∀ fuel session, Session.run fuel program.flatten session = Session.run fuel program session := by
  refine ⟨?_, Compiler.compile_flatten program, ?_⟩
  · rw [List.any_eq_false]
    intro form member
    rw [Form.isGroup_of_mem_allLeaves member]
    exact Bool.false_ne_true
  · intro fuel session
    rw [Session.run_flatten]

end SmallScheme
