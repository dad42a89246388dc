/-
This file says with which errors constants, variables and predefined procedures can fail.
-/

import Mathlib.Data.List.Basic
import SmallScheme.Session.Evaluate

namespace SmallScheme

namespace RunError

/-- Every error of the result is an allowed one. -/
def Raises {A : Type} (allowed : RunError → Prop) (result : Except RunError A) : Prop :=
  ∀ error, result = .error error → allowed error

/-- An error that is no missing procedure. -/
def IsResolved (error : RunError) : Prop :=
  ∀ name, error ≠ .undefinedProcedure name

variable {A B : Type} {allowed : RunError → Prop}

/-- A value raises nothing. -/
theorem raises_ok (value : A) : Raises allowed (.ok value) := nofun

/-- An allowed error may be raised. -/
theorem raises_error {error : RunError} (fine : allowed error) :
    Raises allowed (.error error : Except RunError A) := by
  intro other same
  cases same
  exact fine

/-- A sequence raises what its parts raise. -/
theorem raises_bind {first : Except RunError A} {next : A → Except RunError B}
    (raises : Raises allowed first)
    (rests : ∀ value, first = .ok value → Raises allowed (next value)) :
    Raises allowed (first >>= next) := by
  cases first with
  | error error => exact raises_error (raises error rfl)
  | ok value => exact rests value rfl

end RunError

/-- A value comes with a state that has the property, and an error is an allowed one. -/
def Outcome.Safe {S A : Type} (allowed : RunError → Prop) (property : A → S → Prop) :
    Outcome S A → Prop
  | .ok value state => property value state
  | .error cause _ => allowed cause
  | .outOfFuel => True

/-- A weaker property of the values and the states is safe too. -/
theorem Outcome.Safe.imp {S A : Type} {allowed : RunError → Prop} {property other : A → S → Prop}
    {outcome : Outcome S A} (safe : outcome.Safe allowed property)
    (implies : ∀ value state, property value state → other value state) :
    outcome.Safe allowed other := by
  cases outcome with
  | ok value state => exact implies value state safe
  | error error state => exact safe
  | outOfFuel => trivial

namespace Run

open RunError

variable {S T A B : Type} {allowed : RunError → Prop}

/-- A result from outside a run keeps the state. -/
theorem safe_ofExcept {result : Except RunError A} (raises : Raises allowed result) (state : S) :
    (ofExcept result state).Safe allowed fun value after => result = .ok value ∧ after = state := by
  cases result with
  | ok value => exact ⟨rfl, rfl⟩
  | error error => exact raises error rfl

/-- A sequence is safe if its first part is, and its second part from every state that the first one
leaves. -/
theorem safe_bind {first : Run S A} {next : A → Run S B} {state : S} {middle : A → S → Prop}
    {last : B → S → Prop} (safe : (first state).Safe allowed middle)
    (rests : ∀ value after, middle value after → (next value after).Safe allowed last) :
    ((first >>= next) state).Safe allowed last := by
  rw [bind_apply]
  cases ended : first state with
  | ok value after =>
      rw [ended] at safe
      exact rests value after safe
  | error error after =>
      rw [ended] at safe
      exact safe
  | outOfFuel => trivial

/-- A run on a part of the state is safe if it is there. -/
theorem safe_within {part : T → S} {replace : T → S → T} {run : Run S A} {state : T}
    {property : A → T → Prop}
    (safe : (run (part state)).Safe allowed fun value after => property value (replace state after)) :
    (run.within part replace state).Safe allowed property := by
  unfold within
  cases ended : run (part state) <;> rw [ended] at safe <;> exact safe

/-- A run between two changes is safe if it is after the first one. -/
theorem safe_between {enter leave : S → S} {run : Run S A} {state : S} {property : A → S → Prop}
    (safe : (run (enter state)).Safe allowed fun value after => property value (leave after)) :
    (between enter leave run state).Safe allowed property := by
  unfold between
  cases ended : run (enter state) <;> rw [ended] at safe <;> exact safe

/-- A computation that misses no procedure from any state. -/
def Avoids (run : Run S A) : Prop :=
  ∀ state name after, run state ≠ .error (.undefinedProcedure name) after

/-- A run that raises no missing procedure avoids it. -/
theorem avoids_of_safe {run : Run S A}
    (safe : ∀ state, (run state).Safe IsResolved fun _ _ => True) : Avoids run := by
  intro state name after missing
  have resolved := safe state
  rw [missing] at resolved
  exact resolved name rfl

/-- A result from outside a run that raises no missing procedure avoids it. -/
theorem avoids_ofExcept {result : Except RunError A} (raises : Raises IsResolved result) :
    Avoids (ofExcept result : Run S A) :=
  avoids_of_safe fun state => (safe_ofExcept raises state).imp fun _ _ _ => trivial

/-- A failure for another reason avoids a missing procedure. -/
theorem avoids_fail {error : RunError} (resolved : error.IsResolved) :
    Avoids (fail error : Run S A) :=
  avoids_of_safe fun _ => resolved

end Run

namespace Session

open RunError

/-- A literal never fails for want of a procedure. -/
theorem raises_ofLiteral (literal : Literal) : Raises IsResolved (Datum.ofLiteral literal) := by
  cases literal with
  | character name =>
      refine raises_bind ?_ fun character _ => raises_ok (Datum.character character)
      intro error failed other
      unfold Character.ofName at failed
      repeat' split at failed
      all_goals
        cases failed
        try exact nofun
  | _ => exact raises_ok _

mutual

/-- Quoted data never fail for want of a procedure. -/
theorem raises_ofQuoted (quoted : Quoted) : Raises IsResolved (Datum.ofQuoted quoted) := by
  cases quoted with
  | constant literal => exact raises_ofLiteral literal
  | symbol name => exact raises_ok _
  | list elements => exact raises_bind (raises_allOfQuoted elements) fun _ _ => raises_ok _
  | vector elements => exact raises_bind (raises_allOfQuoted elements) fun _ _ => raises_ok _
  | quotation inner => exact raises_bind (raises_ofQuoted inner) fun _ _ => raises_ok _

/-- Lists of quoted data never fail for want of a procedure. -/
theorem raises_allOfQuoted (elements : List Quoted) :
    Raises IsResolved (Datum.allOfQuoted elements) := by
  cases elements with
  | nil => exact raises_ok _
  | cons quoted rest =>
      exact raises_bind (raises_ofQuoted quoted) fun _ _ =>
        raises_bind (raises_allOfQuoted rest) fun _ _ => raises_ok _

end

section Predefined

variable {allowed : RunError → Prop} (types : ∀ expected, allowed (.wrongArgumentType expected))

include types

/-- A datum that is no integer raises a type error. -/
theorem raises_integer (datum : Datum) : Raises allowed (integer datum) := by
  unfold integer
  cases datum.integer? with
  | none => exact raises_error (types "integer")
  | some value => exact raises_ok value

/-- Arguments that are no integers raise a type error. -/
theorem raises_integers (arguments : List Datum) : Raises allowed (integers arguments) := by
  unfold integers
  induction arguments with
  | nil => exact raises_ok []
  | cons argument rest ih =>
      rw [List.mapM_cons]
      exact raises_bind (raises_integer types argument) fun _ _ =>
        raises_bind ih fun _ _ => raises_ok _

/-- A datum that is no list raises a type error. -/
theorem raises_elements (datum : Datum) : Raises allowed (elements datum) := by
  unfold elements
  cases datum.elements? with
  | none => exact raises_error (types "pair")
  | some elements => exact raises_ok elements

/-- Two arguments raise only type errors where integers are needed. -/
theorem raises_integerPair (left right : Datum) : Raises allowed (integerPair [left, right]) := by
  refine raises_bind (raises_ok (left, right)) fun pair _ => ?_
  exact raises_bind (raises_integer types pair.1) fun _ _ =>
    raises_bind (raises_integer types pair.2) fun _ _ => raises_ok _

/-- A comparison of two arguments raises only type errors. -/
theorem raises_compare (comparison : Int → Int → Bool) (left right : Datum) :
    Raises allowed (compare comparison [left, right]) :=
  raises_bind (raises_integerPair types left right) fun _ _ => raises_ok _

/-- A division of two arguments raises type errors and the division by zero. -/
theorem raises_quotient (division : allowed .divisionByZero) (left right : Datum) :
    Raises allowed (quotient [left, right]) := by
  refine raises_bind (raises_integerPair types left right) fun pair _ => ?_
  dsimp only
  split
  · exact raises_error division
  · exact raises_ok _

/-- Something is there to subtract from. -/
theorem raises_subtract (argument : Datum) (rest : List Datum) :
    Raises allowed (do return Datum.integer (← difference (← integers (argument :: rest)))) := by
  refine raises_bind (raises_integers types (argument :: rest)) fun values read => ?_
  refine raises_bind ?_ fun _ _ => raises_ok _
  unfold difference
  split
  · unfold integers at read
    rw [List.mapM_cons] at read
    cases first : integer argument with
    | error error => rw [first] at read; cases read
    | ok value =>
        cases others : rest.mapM integer <;> rw [first, others] at read <;> cases read
  · exact raises_ok _
  · exact raises_ok _

/-- One argument raises only type errors where a first element is needed. -/
theorem raises_car (argument : Datum) : Raises allowed (car [argument]) := by
  refine raises_bind (raises_ok argument) fun only _ => ?_
  refine raises_bind (raises_elements types only) fun elements _ => ?_
  cases elements with
  | nil => exact raises_error (types "pair")
  | cons first rest => exact raises_ok first

/-- One argument raises only type errors where the rest of a list is needed. -/
theorem raises_cdr (argument : Datum) : Raises allowed (cdr [argument]) := by
  refine raises_bind (raises_ok argument) fun only _ => ?_
  refine raises_bind (raises_elements types only) fun elements _ => ?_
  refine raises_bind ?_ fun _ _ => raises_ok _
  cases elements with
  | nil => exact raises_error (types "pair")
  | cons first rest => exact raises_ok rest

omit types in
/-- A write fails only for the reason that the sink gives. -/
theorem safe_write (writes : ∀ reason, allowed (.output reason)) (piece : String) (sink : Sink) :
    (Sink.write piece sink).Safe allowed fun _ _ => True := by
  unfold Sink.write
  split
  · exact writes _
  · trivial

omit types in
/-- A line fails only for the reason that the sink gives. -/
theorem safe_writeLine (writes : ∀ reason, allowed (.output reason)) (text : String)
    (sink : Sink) : (Sink.writeLine text sink).Safe allowed fun _ _ => True := by
  unfold Sink.writeLine
  split
  · exact Run.safe_bind (safe_write writes _ sink) fun _ after _ => safe_write writes _ after
  · exact safe_write writes _ sink

omit types in
/-- A display of one argument fails only for the reason that the sink gives. -/
theorem safe_display (writes : ∀ reason, allowed (.output reason)) (argument : Datum)
    (sink : Sink) : (display [argument] sink).Safe allowed fun _ _ => True := by
  refine Run.safe_bind (Run.safe_ofExcept (raises_ok argument) sink) fun datum after _ => ?_
  exact Run.safe_bind (safe_writeLine writes _ after) fun _ _ _ => trivial

/-- A predefined procedure that accepts the number of its arguments fails only for their types, for
a division by zero or for the sink. -/
theorem safe_call (division : allowed .divisionByZero) (writes : ∀ reason, allowed (.output reason))
    {builtin : Builtin} {arguments : List Datum}
    (accepted : builtin.arity.accepts arguments.length = true) (sink : Sink) :
    (call arguments builtin sink).Safe allowed fun _ _ => True := by
  have plain {result : Except RunError Datum} (raises : Raises allowed result) :
      (Run.ofExcept result sink).Safe allowed fun _ _ => True :=
    (Run.safe_ofExcept raises sink).imp fun _ _ _ => trivial
  cases builtin with
  | add => exact plain (raises_bind (raises_integers types arguments) fun _ _ => raises_ok _)
  | multiply => exact plain (raises_bind (raises_integers types arguments) fun _ _ => raises_ok _)
  | list => exact plain (raises_ok _)
  | subtract =>
      cases arguments with
      | nil => cases accepted
      | cons argument rest => exact plain (raises_subtract types argument rest)
  | car =>
      obtain ⟨argument, rfl⟩ := List.length_eq_one_iff.mp (beq_iff_eq.mp accepted).symm
      exact plain (raises_car types argument)
  | cdr =>
      obtain ⟨argument, rfl⟩ := List.length_eq_one_iff.mp (beq_iff_eq.mp accepted).symm
      exact plain (raises_cdr types argument)
  | display =>
      obtain ⟨argument, rfl⟩ := List.length_eq_one_iff.mp (beq_iff_eq.mp accepted).symm
      exact safe_display writes argument sink
  | quotient =>
      obtain ⟨left, right, rfl⟩ := List.length_eq_two.mp (beq_iff_eq.mp accepted).symm
      exact plain (raises_quotient types division left right)
  | equal =>
      obtain ⟨left, right, rfl⟩ := List.length_eq_two.mp (beq_iff_eq.mp accepted).symm
      exact plain (raises_ok _)
  | less | lessEqual | greater | greaterEqual | numericEqual =>
      obtain ⟨left, right, rfl⟩ := List.length_eq_two.mp (beq_iff_eq.mp accepted).symm
      exact plain (raises_compare types _ left right)

/-- A predefined procedure fails for the number of its arguments or as its call does. -/
theorem safe_apply (division : allowed .divisionByZero)
    (writes : ∀ reason, allowed (.output reason)) {builtin : Builtin} {arguments : List Datum}
    (counts : Raises allowed (builtin.arity.check arguments.length)) (sink : Sink) :
    (apply builtin arguments sink).Safe allowed fun _ _ => True := by
  refine Run.safe_bind (Run.safe_ofExcept counts sink) ?_
  rintro value after ⟨checked, rfl⟩
  apply safe_call types division writes
  unfold Arity.check at checked
  split at checked
  · assumption
  · split at checked <;> cases checked

end Predefined

/-- A predefined procedure never fails for want of a procedure. -/
theorem avoids_apply (builtin : Builtin) (arguments : List Datum) :
    Run.Avoids (writing (apply builtin arguments)) := by
  apply Run.avoids_of_safe
  intro session
  apply Run.safe_within
  apply safe_apply (fun _ _ => nofun) (fun _ => nofun) (fun _ _ => nofun)
  intro error failed name
  unfold Arity.check at failed
  repeat' split at failed
  all_goals
    cases failed
    try exact nofun

/-- A look-up of a variable misses no procedure. -/
theorem avoids_lookup (name : String) :
    Run.Avoids (Run.read fun session : Session => session.environment.lookup name) := by
  apply Run.avoids_of_safe
  intro session
  refine (Run.safe_ofExcept ?_ session).imp fun _ _ _ => trivial
  dsimp only [Environment.lookup]
  split
  · exact raises_ok _
  · exact raises_error nofun

/-- A change of the session misses no procedure. -/
theorem avoids_update (change : Session → Session) : Run.Avoids (Run.update change) :=
  fun _ _ _ => nofun

end Session

end SmallScheme
