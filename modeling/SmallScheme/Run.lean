/-
This file gives computations that change a state and may fail or run out of fuel.
-/

import SmallScheme.RunError

namespace SmallScheme

/-- A computation that finishes keeps its state, with a value or with an error. -/
inductive Outcome (S A : Type) where
  | ok (value : A) (state : S)
  | error (error : RunError) (state : S)
  | outOfFuel

def Run (S A : Type) : Type :=
  S → Outcome S A

namespace Run

variable {S T A B : Type}

protected def pure (value : A) : Run S A :=
  fun state => .ok value state

protected def bind (first : Run S A) (next : A → Run S B) : Run S B :=
  fun state =>
    match first state with
    | .ok value after => next value after
    | .error error after => .error error after
    | .outOfFuel => .outOfFuel

instance : Monad (Run S) where
  pure := Run.pure
  bind := Run.bind

theorem pure_apply (value : A) (state : S) :
    (pure value : Run S A) state = .ok value state := rfl

theorem bind_apply (first : Run S A) (next : A → Run S B) (state : S) :
    (first >>= next) state =
      match first state with
      | .ok value after => next value after
      | .error error after => .error error after
      | .outOfFuel => .outOfFuel := rfl

theorem bind_pure (run : Run S A) : run >>= pure = run := by
  funext state
  rw [bind_apply]
  cases run state <;> rfl

theorem bind_assoc {C : Type} (first : Run S A) (next : A → Run S B) (last : B → Run S C) :
    (first >>= next) >>= last = first >>= fun value => next value >>= last := by
  funext state
  simp only [bind_apply]
  cases first state <;> rfl

theorem bind_eq_ok {first : Run S A} {next : A → Run S B} {state last : S} {result : B} :
    (first >>= next) state = .ok result last ↔
      ∃ value middle, first state = .ok value middle ∧ next value middle = .ok result last := by
  rw [bind_apply]
  cases first state <;> simp [and_assoc]

/-- A sequence fails where its first part fails, or else where its second part does. -/
theorem bind_eq_error {first : Run S A} {next : A → Run S B} {state last : S} {error : RunError} :
    (first >>= next) state = .error error last ↔
      first state = .error error last ∨
        ∃ value middle, first state = .ok value middle ∧ next value middle = .error error last := by
  rw [bind_apply]
  cases first state <;> simp [and_assoc]

def outOfFuel : Run S A :=
  fun _ => .outOfFuel

def fail (error : RunError) : Run S A :=
  fun state => .error error state

def ofExcept : Except RunError A → Run S A
  | .ok value => Run.pure value
  | .error error => fail error

/-- Reads a part of the state that may be missing. -/
def read (part : S → Except RunError A) : Run S A :=
  fun state => ofExcept (part state) state

def update (change : S → S) : Run S Unit :=
  fun state => .ok () (change state)

/-- Runs on a part of a larger state. -/
def within (part : T → S) (replace : T → S → T) (run : Run S A) : Run T A :=
  fun state =>
    match run (part state) with
    | .ok value after => .ok value (replace state after)
    | .error error after => .error error (replace state after)
    | .outOfFuel => .outOfFuel

/-- Runs between a change of the state and its reversal, which also follows an error. -/
def between (enter leave : S → S) (run : Run S A) : Run S A :=
  fun state =>
    match run (enter state) with
    | .ok value after => .ok value (leave after)
    | .error error after => .error error (leave after)
    | .outOfFuel => .outOfFuel

theorem between_eq_ok {enter leave : S → S} {run : Run S A} {state last : S} {value : A}
    (ended : between enter leave run state = .ok value last) :
    ∃ later, run (enter state) = .ok value later ∧ leave later = last := by
  unfold between at ended
  cases outcome : run (enter state) <;> simp_all

/-- Runs on every item from left to right and collects the values. -/
def all (run : A → Run S B) : List A → Run S (List B)
  | [] => return []
  | item :: rest => do
      let value ← run item
      let values ← all run rest
      return value :: values

/-- Runs on every item from left to right for the effects. -/
def each (run : A → Run S Unit) : List A → Run S Unit
  | [] => return
  | item :: rest => do
      run item
      each run rest

theorem each_singleton (run : A → Run S Unit) (item : A) : each run [item] = run item := by
  funext state
  rw [each, bind_apply]
  cases run item state <;> rfl

theorem each_append (run : A → Run S Unit) (first second : List A) :
    each run (first ++ second) = each run first >>= fun _ => each run second := by
  induction first with
  | nil => rfl
  | cons item rest inductionHypothesis =>
      rw [List.cons_append, each, inductionHypothesis, each, bind_assoc]

end Run

end SmallScheme
