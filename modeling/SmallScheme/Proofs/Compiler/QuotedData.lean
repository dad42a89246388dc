/-
This file shows that the code of a quoted datum denotes the value of the datum that a session builds
from it, and that the compiler and the session refuse the same data with the same error.
-/

import SmallScheme.Compiler.Generate
import SmallScheme.Proofs.Code.Denotation

namespace SmallScheme.Compiler

/-- Both results are there and linked, or both are refused for the same character literal. -/
inductive Parallel {A B : Type} (link : A → B → Prop) : Except RunError A → Except RunError B → Prop
  | holds {a : A} {b : B} (linked : link a b) : Parallel link (.ok a) (.ok b)
  | fails (text : String) :
      Parallel link (.error (.characterLiteral text)) (.error (.characterLiteral text))

section Parallel

variable {A B C D : Type} {link : A → B → Prop} {next : C → D → Prop}

/-- Two sequences run in parallel if their first parts do, and their second parts from linked
values. -/
theorem Parallel.bind {first : Except RunError A} {second : Except RunError B}
    {rest : A → Except RunError C} {other : B → Except RunError D}
    (parallel : Parallel link first second)
    (goesOn : ∀ a b, link a b → Parallel next (rest a) (other b)) :
    Parallel next (first >>= rest) (second >>= other) := by
  cases parallel with
  | holds linked => exact goesOn _ _ linked
  | fails text => exact .fails text

/-- What is made of parallel results is parallel if the makers keep the link. -/
theorem Parallel.return {first : Except RunError A} {second : Except RunError B} {make : A → C}
    {other : B → D} (parallel : Parallel link first second)
    (makes : ∀ a b, link a b → next (make a) (other b)) :
    Parallel next (do return make (← first)) (do return other (← second)) :=
  parallel.bind fun a b linked => .holds (makes a b linked)

end Parallel

/-- The text of the code denotes the value of the datum. -/
def Spells (code : Code.Expr) (datum : Datum) : Prop :=
  code.Writes (Value.ofDatum datum)

/-- Codes that spell data denote their values one by one. -/
theorem forall₂_writes {codes : List Code.Expr} {data : List Datum}
    (spells : List.Forall₂ Spells codes data) :
    List.Forall₂ Code.Expr.Writes codes (Value.allOfDatum data) := by
  rw [Value.allOfDatum_eq_map, List.forall₂_map_right_iff]
  exact spells

/-- The same names of characters are refused on both sides. -/
theorem parallel_ofName (name : String) :
    Parallel Eq (Character.ofName name) (Character.ofName name) := by
  unfold Character.ofName
  split
  · exact .holds rfl
  · split_ifs
    · exact .holds rfl
    · exact .holds rfl
    · exact .fails _

/-- A literal is spelled by its code, or refused on both sides. -/
theorem parallel_constant (literal : Literal) :
    Parallel Spells (constant literal) (Datum.ofLiteral literal) := by
  cases literal with
  | integer value => exact .holds (Code.writes_integer value)
  | character name =>
      refine (parallel_ofName name).return ?_
      rintro c _ rfl
      exact Code.writes_character c
  | string content => exact .holds (Code.writes_string content)
  | boolean value => exact .holds (Code.writes_boolean value)

mutual

/-- A quoted datum is spelled by its code, or refused on both sides. -/
theorem parallel_quoted (datum : Quoted) :
    Parallel Spells (quoted datum) (Datum.ofQuoted datum) := by
  cases datum with
  | constant literal => exact parallel_constant literal
  | symbol name => exact .holds (Code.writes_string name)
  | list elements =>
      exact (parallel_allQuoted elements).return fun _ _ spells =>
        Code.writes_list (forall₂_writes spells)
  | vector elements =>
      exact (parallel_allQuoted elements).return fun _ _ spells =>
        Code.writes_vector (forall₂_writes spells)
  | quotation inner =>
      exact (parallel_quoted inner).return fun _ _ spells => Code.writes_quotation spells

/-- The first element that is refused decides on both sides. -/
theorem parallel_allQuoted (data : List Quoted) :
    Parallel (List.Forall₂ Spells) (allQuoted data) (Datum.allOfQuoted data) := by
  cases data with
  | nil => exact .holds .nil
  | cons datum rest =>
      refine (parallel_quoted datum).bind fun code built spells => ?_
      exact (parallel_allQuoted rest).return fun _ _ others => .cons spells others

end

/-- A quoted datum is refused by the compiler and by a session for the same character literal, or the
compiler writes it as an expression that denotes the value of the session's datum and nothing else. -/
theorem quoted_code_denotes_datum (datum : Quoted) :
    (∃ text, quoted datum = .error (.characterLiteral text) ∧
        Datum.ofQuoted datum = .error (.characterLiteral text)) ∨
      ∃ code built, quoted datum = .ok code ∧ Datum.ofQuoted datum = .ok built ∧
        ∀ value, Code.Denotes code.text.toList value [] ↔ value = Value.ofDatum built := by
  generalize made : quoted datum = first
  generalize read : Datum.ofQuoted datum = second
  have parallel := parallel_quoted datum
  rw [made, read] at parallel
  cases parallel with
  | fails text => exact .inl ⟨text, rfl, rfl⟩
  | @holds code built spells =>
      refine .inr ⟨code, built, rfl, rfl, fun value => ?_⟩
      have denotes := spells []
      rw [List.append_nil] at denotes
      constructor
      · intro other
        exact (other.unique denotes).1
      · rintro rfl
        exact denotes

end SmallScheme.Compiler
